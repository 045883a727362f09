import JavaSource.Decimal.Shortest

/-!
# Positional text of a number

A finite number is written with the fewest digits that read back, never with an exponent, and
always with a decimal point that has a digit on both sides.
-/
namespace JavaSource.Decimal

def zeros (count : Nat) : List Char := List.replicate count '0'

/-- The digits without the zeros that end them. -/
def dropEndZeros (digits : List Char) : List Char := (digits.reverse.dropWhile (· == '0')).reverse

/-- Lays out a positive number around its decimal point. -/
def Scaled.positional (n : Scaled) : List Char :=
  let written := Text.digits 10 n.digits
  if 0 ≤ n.power then written ++ zeros n.power.toNat ++ ['.', '0']
  else
    let places := (-n.power).toNat
    let padded := zeros (places + 1 - written.length) ++ written
    let whole := padded.take (padded.length - places)
    let fraction := dropEndZeros (padded.drop (padded.length - places))
    whole ++ '.' :: (if fraction.isEmpty then ['0'] else fraction)

def Binary64.text : Binary64 → String
  | .nan => "NaN"
  | .infinite negative => if negative then "-inf" else "inf"
  | .finite negative mantissa exponent =>
    let body := if mantissa = 0 then ['0', '.', '0'] else (shortest mantissa exponent).positional
    String.ofList (if negative then '-' :: body else body)

end JavaSource.Decimal
