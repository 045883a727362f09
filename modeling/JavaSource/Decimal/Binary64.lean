import JavaSource.Text.Numeral

/-!
# Binary64 numbers

A finite number is a mantissa below `2 ^ 53` times a power of two not below `2 ^ -1074`. A decimal
is rounded to the nearest such number, and a tie goes to the even mantissa; at `2 ^ 1024 - 2 ^ 970`
and above it rounds to infinity.
-/
namespace JavaSource.Decimal

inductive Binary64 where
  | nan
  | infinite (negative : Bool)
  | finite (negative : Bool) (mantissa : Nat) (exponent : Int)
  deriving DecidableEq, Repr

/-- The quotient rounded to the nearest natural number, a tie to the even one. -/
def roundDiv (numerator denominator : Nat) : Nat :=
  let quotient := numerator / denominator
  let twice := 2 * (numerator % denominator)
  if twice < denominator ∨ (twice = denominator ∧ quotient % 2 = 0) then quotient else quotient + 1

namespace Binary64

/-- Rounds the positive quotient of two naturals. -/
def ofQuotient (negative : Bool) (numerator denominator : Nat) : Binary64 :=
  let guess : Int := (numerator.log2 : Int) - denominator.log2 - 52
  let low := numerator <<< (-guess).toNat < denominator <<< (52 + guess.toNat)
  let exponent := max (if low then guess - 1 else guess) (-1074)
  let mantissa := roundDiv (numerator <<< (-exponent).toNat) (denominator <<< exponent.toNat)
  let (mantissa, exponent) :=
    if mantissa = 1 <<< 53 then (1 <<< 52, exponent + 1) else (mantissa, exponent)
  if exponent > 971 then .infinite negative else .finite negative mantissa exponent

/-- Rounds `digits * 10 ^ power`. Far outside the range the answer is known without arithmetic. -/
def ofDecimal (negative : Bool) (digits : Nat) (power : Int) : Binary64 :=
  let top : Int := (Text.digits 10 digits).length + power
  if digits = 0 ∨ top < -330 then .finite negative 0 (-1074)
  else if top > 310 then .infinite negative
  else ofQuotient negative (digits * Nat.pow 10 power.toNat) (Nat.pow 10 (-power).toNat)

end Binary64

end JavaSource.Decimal
