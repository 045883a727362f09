import JavaSource.Toml.DateTime
import JavaSource.Toml.Value

/-!
# Scalars without quotes

Booleans, numbers, dates and times. A single underscore may stand between two digits of a number.
Decimal integers and the whole part of a float have no leading zeros; numbers of another base have
no sign. A float has a fraction, an exponent or both.

An integer may have no value: one of another base has none without any digits, and a decimal one of
several groups has none if they hold more than decimal digits, since only the characters next to an
underscore have to be digits, and those of a hexadecimal number will do.
-/
namespace JavaSource.Toml.Scalar

/-- The digits of a number without the underscores between them. -/
def ungroup? (isDigit : Char → Bool) : List Char → Option (List Char)
  | [] => none
  | [c] => if isDigit c then some [c] else none
  | c :: '_' :: rest => if isDigit c then (ungroup? isDigit rest).map (c :: ·) else none
  | c :: rest => if isDigit c then (ungroup? isDigit rest).map (c :: ·) else none

def isDigitOf (base : Nat) (c : Char) : Bool :=
  match Text.digitValue? c with
  | some value => value < base
  | none => false

def natural? (base : Nat) (text : List Char) : Option Nat :=
  (ungroup? (isDigitOf base) text).bind (Text.ofDigits? base)

/-- Whether every underscore stands between two hexadecimal digits. -/
def isGrouped : List Char → Bool
  | [] => true
  | c :: '_' :: next :: rest =>
    isDigitOf 16 c && isDigitOf 16 next && isGrouped (next :: rest)
  | c :: rest => c != '_' && isGrouped rest

def isExponentMark (c : Char) : Bool := c == 'e' || c == 'E'

/-- Decimal digits of which the first is no zero, unless it is the only one. -/
def wholeDigits? (text : List Char) : Option (List Char) :=
  match ungroup? (isDigitOf 10) text with
  | some ('0' :: _ :: _) => none
  | digits => digits

/-- Splits off a sign; `true` stands for minus. -/
def splitSign : List Char → Bool × List Char
  | '+' :: rest => (false, rest)
  | '-' :: rest => (true, rest)
  | text => (false, text)

/-- Reads an integer of another base after the mark of its base. -/
def based? (base : Nat) (text : List Char) : Option (Option Nat) :=
  if text.isEmpty then some none else (natural? base text).map some

/-- Reads a decimal integer without its sign. Of several groups only the first has to be all digits;
a space, a point or an exponent mark in the others makes the text no integer. -/
def decimal? (text : List Char) : Option (Option Nat) := do
  let (first, groups) := text.span (· != '_')
  let digits ← wholeDigits? first
  if groups.isEmpty then some (Text.ofDigits? 10 digits)
  else if digits = ['0'] || !isGrouped text then none
  else if groups.any fun c => c == ' ' || c == '.' || isExponentMark c then none
  else some (Text.ofDigits? 10 (text.filter (· != '_')))

def integer? : List Char → Option (Option Int)
  | '0' :: 'x' :: rest => (based? 16 rest).map (·.map Int.ofNat)
  | '0' :: 'o' :: rest => (based? 8 rest).map (·.map Int.ofNat)
  | '0' :: 'b' :: rest => (based? 2 rest).map (·.map Int.ofNat)
  | text =>
    let (negative, body) := splitSign text
    (decimal? body).map (·.map fun size => if negative then -(size : Int) else size)

/-- The digits of a fraction, its point included; none at all without a point. -/
def fractionDigits? : List Char → Option (List Char)
  | [] => some []
  | '.' :: rest => ungroup? (isDigitOf 10) rest
  | _ => none

/-- The value of an exponent with its mark; zero without one. -/
def exponent? : List Char → Option Int
  | [] => some 0
  | _ :: rest => do
    let (negative, body) := splitSign rest
    let size ← natural? 10 body
    some (if negative then -(size : Int) else size)

def float? (text : List Char) : Option FloatLiteral :=
  let (negative, body) := splitSign text
  if body = "inf".toList then some (.infinite negative)
  else if body = "nan".toList then some .nan
  else do
    let (mantissa, scale) := body.span fun c => !isExponentMark c
    let (whole, fraction) := mantissa.span (· != '.')
    if fraction.isEmpty && scale.isEmpty then none
    else
      let wholeDigits ← wholeDigits? whole
      let fractionDigits ← fractionDigits? fraction
      let exponent ← exponent? scale
      let digits ← Text.ofDigits? 10 (wholeDigits ++ fractionDigits)
      some (.decimal negative digits (exponent - fractionDigits.length))

def read? (text : List Char) : Option Value :=
  if text = "true".toList then some (.boolean true)
  else if text = "false".toList then some (.boolean false)
  else
    ((integer? text).map Value.integer).orElse fun _ =>
    ((float? text).map Value.float).orElse fun _ =>
    if DateTime.isDateTime text then some (.datetime (String.ofList text)) else none

end JavaSource.Toml.Scalar
