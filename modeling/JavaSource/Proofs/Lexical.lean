import JavaSource.Literal
import Mathlib.Algebra.Group.Nat.Even
import Mathlib.Data.List.TakeWhile

/-!
# Lexical rules of Java for constants

A text is first turned into input characters. A backslash with an even number of backslashes right
before it, and a `u` after it, begins a Unicode escape, which stands for one code unit; all else
stands for itself. Constants are then read from the input characters: a string is a sequence of
UTF-16 code units, and a numeral is an integer of 32 bits.

The reader is given less than the language allows, so that what it reads has the value that the
language gives to it: digits are not grouped, numerals and keywords are written without escapes and
end where a statement or a list can go on, and a backslash in a string is followed by one of five
characters.
-/
namespace JavaSource.Lexical

/-! ### Code units -/

/-- The UTF-16 code units of a code point; a lone half of a pair is its own unit. -/
def units (code : Nat) : List UInt16 :=
  if code < 0x10000 then [UInt16.ofNat code]
  else
    -- A pair of surrogates, the high one first, has ten bits in each.
    [UInt16.ofNat (0xd800 + (code - 0x10000) / 0x400),
      UInt16.ofNat (0xdc00 + (code - 0x10000) % 0x400)]

def utf16 (text : List Char) : List UInt16 := text.flatMap (fun c => units c.toNat)

/-- No character is half of a surrogate pair. -/
theorem toNat_cases (c : Char) : c.toNat < 0xd800 ∨ 0xdfff < c.toNat ∧ c.toNat < 0x110000 :=
  c.valid

theorem unit_inj {first second : Nat} (first_lt : first < 0x10000) (second_lt : second < 0x10000)
    (same : UInt16.ofNat first = UInt16.ofNat second) : first = second := by
  have values : first % 65536 = second % 65536 := by simpa using congrArg UInt16.toNat same
  omega

theorem units_append_inj {c d : Char} {rest more : List UInt16}
    (same : units c.toNat ++ rest = units d.toNat ++ more) : c = d ∧ rest = more := by
  have first := toNat_cases c
  have second := toNat_cases d
  unfold units at same
  rw [← Char.toNat_inj]
  split at same <;> split at same
  · obtain ⟨unit, later⟩ := List.cons.inj same
    exact ⟨unit_inj (by omega) (by omega) unit, later⟩
  -- A unit of its own is no half of a pair.
  · have half := unit_inj (by omega) (by omega) (List.cons.inj same).1
    omega
  · have half := unit_inj (by omega) (by omega) (List.cons.inj same).1
    omega
  · obtain ⟨high, later⟩ := List.cons.inj same
    obtain ⟨low, last⟩ := List.cons.inj later
    have high := unit_inj (by omega) (by omega) high
    have low := unit_inj (by omega) (by omega) low
    exact ⟨by omega, last⟩

theorem utf16_inj {first second : List Char} (same : utf16 first = utf16 second) :
    first = second := by
  -- Every character has a unit, so neither text ends before the other.
  have nonempty (c : Char) : units c.toNat ≠ [] := by
    unfold units
    split <;> simp
  induction first generalizing second with
  | nil =>
    cases second with
    | nil => rfl
    | cons d more => exact absurd same.symm (by simp [utf16, nonempty])
  | cons c rest ih =>
    cases second with
    | nil => exact absurd same (by simp [utf16, nonempty])
    | cons d more =>
      obtain ⟨rfl, later⟩ := units_append_inj same
      rw [ih later]

/-! ### Input characters -/

/-- An input character: the code point or code unit that it stands for, and the text after it. -/
structure Input where
  code : Nat
  rest : List Char

/-- The input characters of a text; `even` says whether the number of backslashes right before the
text is even. After the `u` of a Unicode escape more of them may follow. An escape without four
digits is an error, and nothing is read from there on. -/
def inputs (even : Bool) : List Char → List Input
  | [] => []
  | c :: rest =>
    if c ≠ '\\' then ⟨c.toNat, rest⟩ :: inputs true rest
    -- In a run of backslashes every other one may begin an escape.
    else if even = false ∨ rest.head? ≠ some 'u' then ⟨c.toNat, rest⟩ :: inputs (!even) rest
    else
      match Text.ofDigits? 16 ((rest.dropWhile (· == 'u')).take 4) with
      | none => []
      | some code =>
        let after := rest.dropWhile (· == 'u')
        if after.length < 4 then [] else ⟨code, after.drop 4⟩ :: inputs true (after.drop 4)
termination_by text => text.length
decreasing_by
  all_goals simp only [List.length_cons, List.length_drop]
  · omega
  · omega
  · have shorter := List.length_dropWhile_le (· == 'u') rest
    omega

theorem inputs_cons {c : Char} (no_slash : c ≠ '\\') (even : Bool) (rest : List Char) :
    inputs even (c :: rest) = ⟨c.toNat, rest⟩ :: inputs true rest := by
  rw [inputs, if_pos no_slash]

/-- A backslash that begins no Unicode escape. -/
theorem inputs_slash {even : Bool} {rest : List Char}
    (plain : even = false ∨ rest.head? ≠ some 'u') :
    inputs even ('\\' :: rest) = ⟨'\\'.toNat, rest⟩ :: inputs (!even) rest := by
  rw [inputs, if_neg (by simp), if_pos plain]

theorem inputs_unicode {digits rest : List Char} {code : Nat} (four : digits.length = 4)
    (value : Text.ofDigits? 16 digits = some code) (no_mark : digits.head? ≠ some 'u') :
    inputs true ('\\' :: 'u' :: (digits ++ rest)) = ⟨code, rest⟩ :: inputs true rest := by
  have marks : ('u' :: (digits ++ rest)).dropWhile (· == 'u') = digits ++ rest := by
    cases digits with
    | nil => cases four
    | cons d more =>
      have other : (d == 'u') = false := by simpa using no_mark
      simp [other]
  rw [inputs, if_neg (by simp), if_neg (by simp), marks, List.take_left' four, value]
  simp [List.drop_left' four, four]

/-! ### Strings -/

/-- What a backslash and this input character stand for in a string. -/
def escapeCode? (code : Nat) : Option Nat :=
  if code = 'n'.toNat then some '\n'.toNat
  else if code = 'r'.toNat then some '\r'.toNat
  else if code = 't'.toNat then some '\t'.toNat
  else if code = '"'.toNat ∨ code = '\\'.toNat then some code
  else none

/-- The code units of a string, up to the quote that closes it, and the text after that quote. No
line may end inside. -/
def scan : List Input → Option (List UInt16 × List Char)
  | [] => none
  | input :: more =>
    if input.code = '"'.toNat then some ([], input.rest)
    else if input.code = '\n'.toNat ∨ input.code = '\r'.toNat then none
    else if input.code = '\\'.toNat then
      -- An escape is two input characters, whichever way each of them was written.
      match more with
      | [] => none
      | next :: after =>
        (escapeCode? next.code).bind fun code =>
          (scan after).map fun (value, rest) => (units code ++ value, rest)
    else (scan more).map fun (value, rest) => (units input.code ++ value, rest)

theorem scan_quote (rest : List Char) (more : List Input) :
    scan (⟨'"'.toNat, rest⟩ :: more) = some ([], rest) := by
  rw [scan.eq_def]
  exact if_pos rfl

theorem scan_slash {next : Input} {code : Nat} (stands : escapeCode? next.code = some code)
    (rest : List Char) (more : List Input) :
    scan (⟨'\\'.toNat, rest⟩ :: next :: more) =
      (scan more).map fun (value, after) => (units code ++ value, after) := by
  rw [scan.eq_def]
  simp only [stands, Option.bind_some]
  rfl

theorem scan_plain {input : Input} (no_quote : input.code ≠ '"'.toNat)
    (no_slash : input.code ≠ '\\'.toNat)
    (same_line : input.code ≠ '\n'.toNat ∧ input.code ≠ '\r'.toNat) (more : List Input) :
    scan (input :: more) =
      (scan more).map fun (value, after) => (units input.code ++ value, after) := by
  rw [scan.eq_def]
  simp only [if_neg no_quote, if_neg no_slash, if_neg (not_or.mpr same_line)]

/-! ### Constants -/

/-- What a literal denotes. -/
inductive Constant where
  | int (value : Int32)
  | boolean (value : Bool)
  | string (value : List UInt16)
  deriving DecidableEq

/-- Reads a string after the quote that opens it. Three quotes open a text block. -/
def readString? (text : List Char) : Option (Constant × List Char) :=
  if ((inputs true text).take 2).map Input.code = ['"'.toNat, '"'.toNat] then none
  else (scan (inputs true text)).map fun (value, rest) => (.string value, rest)

/-- White space, and the marks after which a statement or a list goes on. A point is none of them,
since a numeral may go on with it. -/
def endsWord (c : Char) : Bool := c ∈ [' ', '\t', '\x0c', '\n', '\r', ';', ',']

def below (bound : Nat) (value : Nat) : Option Nat := if value < bound then some value else none

/-- The integer of a numeral, or its negative. The numeral is hexadecimal after `0x` and octal after
another zero, and then gives the 32 bits. A decimal numeral is below `2 ^ 31`, or up to it when it
is negated. -/
def intOf? (negated : Bool) (word : List Char) : Option Int32 :=
  let magnitude :=
    match word with
    | '0' :: 'x' :: digits => (Text.ofDigits? 16 digits).bind (below (2 ^ 32))
    | '0' :: next :: digits => (Text.ofDigits? 8 (next :: digits)).bind (below (2 ^ 32))
    | _ => (Text.ofDigits? 10 word).bind (below (if negated then 2 ^ 31 + 1 else 2 ^ 31))
  magnitude.map fun value => if negated then -Int32.ofNat value else Int32.ofNat value

def ofWord? (word : List Char) : Option Constant :=
  if word = "true".toList then some (.boolean true)
  else if word = "false".toList then some (.boolean false)
  else (intOf? false word).map .int

/-- Reads a constant at the start of a text, and says what text follows it. -/
def read (text : List Char) : Option (Constant × List Char) :=
  match text with
  | '"' :: rest => readString? rest
  | '-' :: rest =>
    (intOf? true (rest.takeWhile (!endsWord ·))).map fun value =>
      (.int value, rest.dropWhile (!endsWord ·))
  | _ =>
    (ofWord? (text.takeWhile (!endsWord ·))).map fun constant =>
      (constant, text.dropWhile (!endsWord ·))

end JavaSource.Lexical
