import JavaSource.Toml.Scalar
import JavaSource.Toml.Table
import JavaSource.Toml.Token

/-!
# Statements

A document is a list of lines, each a header, an assignment or empty. Line ends may stand anywhere
between the parts of an array or of a table in braces, and a comma may follow the last part. Arrays
and tables in braces nest at most eighty deep, and a key has at most eighty parts.
-/
namespace JavaSource.Toml

def maxDepth : Nat := 80

namespace Key

def isBare (c : Char) : Bool := c.isAlphanum || c == '_' || c == '-'

/-- A part of a key is a bare word or a string on a single line. -/
def ofToken? (token : Token) : Option Key :=
  match token.lexeme with
  | .atom chars => if chars.all isBare then some ⟨String.ofList chars, token.span⟩ else none
  | .text content false => some ⟨content, token.span⟩
  | _ => none

/-- Reads the parts of a key, and what follows them. -/
def parts? : List Token → Option (List Key × List Token)
  | [] => none
  | first :: ⟨.dot, _, _⟩ :: rest => do
    let key ← ofToken? first
    let (keys, after) ← parts? rest
    some (key :: keys, after)
  | first :: rest => (ofToken? first).map fun key => ([key], rest)

def path? (tokens : List Token) : Option (List Key × List Token) := do
  let (keys, after) ← parts? tokens
  if keys.length ≤ maxDepth then some (keys, after) else none

end Key

def isNewline (token : Token) : Bool := token.lexeme = .newline

def dropNewlines (tokens : List Token) : List Token := tokens.dropWhile isNewline

/-- The text of a value without quotes or brackets after its first atom, and the offset where it
stops. It goes on with a point and, even after blanks, with another atom: a float has a point, and
a space may stand between a date and a time. -/
def continued : Nat → List Token → List Char × Nat × List Token
  | _, ⟨.dot, span, []⟩ :: rest =>
    let (text, stop, after) := continued span.stop rest
    ('.' :: text, stop, after)
  | _, ⟨.atom chars, span, blanks⟩ :: rest =>
    let (text, stop, after) := continued span.stop rest
    (blanks ++ chars ++ text, stop, after)
  | stop, tokens => ([], stop, tokens)

def scalar? : List Token → Option (Located Value × List Token)
  | ⟨.atom chars, span, _⟩ :: rest =>
    let (text, stop, after) := continued span.stop rest
    (Scalar.read? (chars ++ text)).map fun value => (⟨value, .ofRange span.offset stop⟩, after)
  | _ => none

mutual

/-- Reads a value with brackets nested at most `depth` deep. Each round consumes a token or goes on
to a reader that does, so two steps for each token are enough. -/
def value? : Nat → Nat → List Token → Option (Located Value × List Token)
  | 0, _, _ => none
  | steps + 1, depth, tokens =>
    match tokens, depth with
    | ⟨.text content _, span, _⟩ :: rest, _ => some (⟨.string content, span⟩, rest)
    | ⟨.openBracket, first, _⟩ :: rest, depth + 1 => do
      let (items, last, after) ← items? steps depth rest
      some (⟨.array items, first.through last⟩, after)
    | ⟨.openBrace, first, _⟩ :: rest, depth + 1 => do
      let (assignments, last, after) ← assignments? steps depth rest
      let table ← Table.ofAssignments? assignments
      some (⟨.table table, first.through last⟩, after)
    | tokens, _ => scalar? tokens

/-- Reads the rest of an array, up to its closing bracket, whose span it returns. -/
def items? : Nat → Nat → List Token → Option (List (Located Value) × Span × List Token)
  | 0, _, _ => none
  | steps + 1, depth, tokens =>
    match dropNewlines tokens with
    | ⟨.closeBracket, span, _⟩ :: rest => some ([], span, rest)
    | tokens => do
      let (item, after) ← value? steps depth tokens
      match dropNewlines after with
      | ⟨.comma, _, _⟩ :: rest =>
        let (items, span, after) ← items? steps depth rest
        some (item :: items, span, after)
      | ⟨.closeBracket, span, _⟩ :: rest => some ([item], span, rest)
      | _ => none

/-- Reads the rest of a table in braces, up to its closing brace, whose span it returns. -/
def assignments? : Nat → Nat → List Token → Option (List Assignment × Span × List Token)
  | 0, _, _ => none
  | steps + 1, depth, tokens =>
    match dropNewlines tokens with
    | ⟨.closeBrace, span, _⟩ :: rest => some ([], span, rest)
    | tokens => do
      let (path, after) ← Key.path? tokens
      match dropNewlines after with
      | ⟨.equals, _, _⟩ :: rest =>
        let (value, after) ← value? steps depth (dropNewlines rest)
        match dropNewlines after with
        | ⟨.comma, _, _⟩ :: rest =>
          let (more, span, after) ← assignments? steps depth rest
          some (⟨path, value⟩ :: more, span, after)
        | ⟨.closeBrace, span, _⟩ :: rest => some ([⟨path, value⟩], span, rest)
        | _ => none
      | _ => none

end

inductive Statement where
  | header (content : Header)
  | assignment (content : Assignment)

namespace Statement

def ofPath? (path : List Key) (span : Span) (inArray : Bool) : Option Header :=
  path.getLast?.map fun key => ⟨path.dropLast, key, span, inArray⟩

/-- Reads a header after its first bracket. Double brackets have nothing between them. -/
def header? (first : Span) : List Token → Option (Header × List Token)
  | ⟨.openBracket, second, _⟩ :: rest => do
    let (path, after) ← Key.path? rest
    match after with
    | ⟨.closeBracket, third, _⟩ :: ⟨.closeBracket, last, _⟩ :: rest =>
      if first.meets second && third.meets last then
        (ofPath? path (first.through last) true).map (·, rest)
      else none
    | _ => none
  | tokens => do
    let (path, after) ← Key.path? tokens
    match after with
    | ⟨.closeBracket, last, _⟩ :: rest =>
      (ofPath? path (first.through last) false).map (·, rest)
    | _ => none

def assignment? (tokens : List Token) : Option (Assignment × List Token) := do
  let (path, after) ← Key.path? tokens
  match after with
  | ⟨.equals, _, _⟩ :: rest =>
    let (value, after) ← value? (2 * rest.length + 2) maxDepth rest
    some (⟨path, value⟩, after)
  | _ => none

def read? : List Token → Option (Statement × List Token)
  | ⟨.openBracket, first, _⟩ :: rest =>
    (header? first rest).map fun (read, after) => (.header read, after)
  | tokens => (assignment? tokens).map fun (read, after) => (.assignment read, after)

/-- Reads a document's statements, each on lines of its own; a step for each token is enough. -/
def readAll? : Nat → List Token → Option (List Statement)
  | _, [] => some []
  | 0, _ => none
  | steps + 1, tokens =>
    match dropNewlines tokens with
    | [] => some []
    | tokens => do
      let (statement, after) ← read? tokens
      match after with
      | [] => some [statement]
      | ⟨.newline, _, _⟩ :: rest =>
        let statements ← readAll? steps rest
        some (statement :: statements)
      | _ => none

/-- Groups statements by header: the assignments before the first one, then the sections. -/
def sections : List Statement → List Assignment × List Section
  | [] => ([], [])
  | .assignment a :: rest =>
    let (assignments, parts) := sections rest
    (a :: assignments, parts)
  | .header h :: rest =>
    let (assignments, parts) := sections rest
    ([], ⟨some h, assignments⟩ :: parts)

end Statement

end JavaSource.Toml
