import JavaSource.Decimal.Binary64

/-!
# The fewest digits that read back

A finite binary64 number stands for every real that rounds to it: those between the midpoints to
its two neighbours, the midpoints included when the mantissa is even. Of the decimals in there the
one with the fewest digits is chosen, of two with as many digits the nearer one, and of two equally
near the larger one.
-/
namespace JavaSource.Decimal

/-- The reals that round to one number: `low`, `middle` and `high` count quarters of the number's
last binary place, each of which is `2 ^ exponent`. -/
structure Interval where
  low : Nat
  middle : Nat
  high : Nat
  exponent : Int
  closed : Bool
  deriving DecidableEq, Repr

/-- Below a power of two the numbers lie twice as close. -/
def Interval.around (mantissa : Nat) (exponent : Int) : Interval :=
  let below := if mantissa = 1 <<< 52 ∧ exponent > -1074 then 1 else 2
  { low := 4 * mantissa - below, middle := 4 * mantissa, high := 4 * mantissa + 2
    exponent := exponent - 2, closed := mantissa % 2 == 0 }

/-- Counted in steps of `10 ^ power`, the interval's quarters are multiplied by the factor and
divided by the divisor. -/
def Interval.factor (i : Interval) (power : Int) : Nat :=
  Nat.pow 10 (-power).toNat <<< i.exponent.toNat

def Interval.divisor (i : Interval) (power : Int) : Nat :=
  Nat.pow 10 power.toNat <<< (-i.exponent).toNat

def Interval.contains (i : Interval) (digits : Nat) (power : Int) : Bool :=
  let low := i.low * i.factor power
  let high := i.high * i.factor power
  let point := digits * i.divisor power
  if i.closed then low ≤ point && point ≤ high else low < point && point < high

/-- The multiple of `10 ^ power` next to the middle that reads back, if one does. -/
def Interval.onGrid? (i : Interval) (power : Int) : Option Nat :=
  let middle := i.middle * i.factor power
  let down := middle / i.divisor power
  let up := down + 1
  match i.contains down power, i.contains up power with
  | false, false => none
  | true, false => some down
  | false, true => some up
  | true, true =>
    if middle - down * i.divisor power < up * i.divisor power - middle then some down else some up

/-- The least `top` with the middle below `10 ^ top`, for a middle above zero. -/
def Interval.top (i : Interval) : Int :=
  let above := i.middle <<< i.exponent.toNat
  let below := 1 <<< (-i.exponent).toNat
  if below ≤ above then (Text.digits 10 (above / below)).length
  else 1 - (Text.digits 10 (below / above)).length

/-- A number `digits * 10 ^ power`. -/
structure Scaled where
  digits : Nat
  power : Int
  deriving DecidableEq, Repr

/-- The shortest decimal for a positive finite number; seventeen digits always suffice. -/
def shortest (mantissa : Nat) (exponent : Int) : Scaled :=
  let i := Interval.around mantissa exponent
  let grids := (List.range 17).map fun (count : Nat) => i.top - (count + 1 : Int)
  let hit := grids.findSome? fun power =>
    (i.onGrid? power).map fun digits => (⟨digits, power⟩ : Scaled)
  hit.getD ⟨0, 0⟩

end JavaSource.Decimal
