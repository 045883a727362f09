import JavaSource.Text.Numeral

/-!
# Quoted strings

The content of the four kinds of strings: between double quotes with escapes, between single
quotes without any, and either between one quote on a single line or between three quotes on
several. A line end at the start of a string of several lines is dropped, and line ends are kept as
written. One or two quotes right before the closing three belong to the content. Control characters
other than tab are not allowed.
-/
namespace JavaSource.Toml.Quoted

def isAllowed (c : Char) : Bool := c == '\t' || (' ' ≤ c && c != '\x7f')

def shortEscape? (c : Char) : Option Char :=
  match c with
  | 'b' => some '\x08'
  | 't' => some '\t'
  | 'n' => some '\n'
  | 'f' => some '\x0c'
  | 'r' => some '\r'
  | 'e' => some '\x1b'
  | '"' => some '"'
  | '\\' => some '\\'
  | _ => none

/-- How many hexadecimal digits follow an escape letter. -/
def escapeWidth? (c : Char) : Option Nat :=
  match c with
  | 'x' => some 2
  | 'u' => some 4
  | 'U' => some 8
  | _ => none

/-- The character with a code point; surrogates and numbers beyond the last one have none. -/
def charOf? (code : Nat) : Option Char := if code.isValidChar then some (Char.ofNat code) else none

/-- Where a reader of escaped text stands: among the characters, after a backslash, with some
digits of a code point still to come, or after a backslash at a line's end, before that end
(`lineEnd`) or past it (`gap`). -/
inductive Mode where
  | plain
  | escape
  | code (left value : Nat)
  | lineEnd
  | gap
  deriving DecidableEq, Repr

/-- What was read, and what follows it. -/
abbrev Reading := Option (List Char × List Char)

def Reading.after (c : Char) (reading : Reading) : Reading :=
  reading.map fun (content, rest) => (c :: content, rest)

/-- The quotes that follow three closing ones and still belong to the content: at most two. -/
def closing (quote : Char) : List Char → List Char × List Char
  | a :: b :: rest =>
    if a = quote then (if b = quote then ([a, b], rest) else ([a], b :: rest))
    else ([], a :: b :: rest)
  | [a] => if a = quote then ([a], []) else ([], [a])
  | [] => ([], [])

/-- Text with escapes on a single line. -/
def escapedLine : Mode → List Char → Reading
  | .plain, '"' :: rest => some ([], rest)
  | .plain, '\\' :: rest => escapedLine .escape rest
  | .plain, c :: rest => if isAllowed c then (escapedLine .plain rest).after c else none
  | .escape, c :: rest =>
    match shortEscape? c, escapeWidth? c with
    | some plain, _ => (escapedLine .plain rest).after plain
    | none, some width => escapedLine (.code width 0) rest
    | none, none => none
  | .code left value, c :: rest =>
    match Text.digitValue? c with
    | none => none
    | some next =>
      if left ≤ 1 then
        (charOf? (value * 16 + next)).bind fun whole => (escapedLine .plain rest).after whole
      else escapedLine (.code (left - 1) (value * 16 + next)) rest
  | _, _ => none

/-- Text with escapes on several lines. A backslash at the end of a line takes the blanks and line
ends after it out of the content. -/
def escapedLines : Mode → List Char → Reading
  | .plain, '"' :: '"' :: '"' :: rest => some (closing '"' rest)
  | .plain, '\\' :: rest => escapedLines .escape rest
  | .plain, '\r' :: '\n' :: rest => ((escapedLines .plain rest).after '\n').after '\r'
  | .plain, c :: rest =>
    if isAllowed c || c == '\n' then (escapedLines .plain rest).after c else none
  | .gap, '"' :: '"' :: '"' :: rest => some (closing '"' rest)
  | .gap, '\\' :: rest => escapedLines .escape rest
  | .gap, '\r' :: '\n' :: rest => escapedLines .gap rest
  | .gap, c :: rest =>
    if c == ' ' || c == '\t' || c == '\n' then escapedLines .gap rest
    else if isAllowed c then (escapedLines .plain rest).after c
    else none
  | .lineEnd, '\r' :: '\n' :: rest => escapedLines .gap rest
  | .lineEnd, c :: rest =>
    if c == ' ' || c == '\t' then escapedLines .lineEnd rest
    else if c == '\n' then escapedLines .gap rest
    else none
  | .escape, '\r' :: '\n' :: rest => escapedLines .gap rest
  | .escape, c :: rest =>
    if c == ' ' || c == '\t' then escapedLines .lineEnd rest
    else if c == '\n' then escapedLines .gap rest
    else
      match shortEscape? c, escapeWidth? c with
      | some plain, _ => (escapedLines .plain rest).after plain
      | none, some width => escapedLines (.code width 0) rest
      | none, none => none
  | .code left value, c :: rest =>
    match Text.digitValue? c with
    | none => none
    | some next =>
      if left ≤ 1 then
        (charOf? (value * 16 + next)).bind fun whole => (escapedLines .plain rest).after whole
      else escapedLines (.code (left - 1) (value * 16 + next)) rest
  | _, [] => none

/-- Text without escapes on a single line. -/
def literalLine : List Char → Reading
  | [] => none
  | '\'' :: rest => some ([], rest)
  | c :: rest => if isAllowed c then (literalLine rest).after c else none

/-- Text without escapes on several lines. -/
def literalLines : List Char → Reading
  | [] => none
  | '\'' :: '\'' :: '\'' :: rest => some (closing '\'' rest)
  | '\r' :: '\n' :: rest => ((literalLines rest).after '\n').after '\r'
  | c :: rest => if isAllowed c || c == '\n' then (literalLines rest).after c else none

def dropLineEnd : List Char → List Char
  | '\n' :: rest => rest
  | '\r' :: '\n' :: rest => rest
  | text => text

end JavaSource.Toml.Quoted
