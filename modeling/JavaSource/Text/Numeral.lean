/-!
# Numerals

Digits above nine are the lowercase letters `a` to `f`. A numeral has either as few digits as its
value needs or a fixed number of them.
-/
namespace JavaSource.Text

/-- The digit for a value below sixteen. -/
def digit (value : Nat) : Char :=
  if value < 10 then Char.ofNat (48 + value) else Char.ofNat (87 + value)

/-- The value of a digit in any base up to sixteen, in either case. -/
def digitValue? (c : Char) : Option Nat :=
  if '0' ≤ c ∧ c ≤ '9' then some (c.toNat - 48)
  else if 'a' ≤ c ∧ c ≤ 'f' then some (c.toNat - 87)
  else if 'A' ≤ c ∧ c ≤ 'F' then some (c.toNat - 55)
  else none

theorem digitValue?_digit : ∀ value < 16, digitValue? (digit value) = some value := by decide

/-- The last `width` digits of a value. -/
def fixedDigits (base : Nat) : Nat → Nat → List Char
  | 0, _ => []
  | width + 1, value => fixedDigits base width (value / base) ++ [digit (value % base)]

theorem length_fixedDigits (base width value : Nat) :
    (fixedDigits base width value).length = width := by
  induction width generalizing value with
  | zero => rfl
  | succ width ih => simp [fixedDigits, ih]

/-- The digits of a value without leading zeros; zero has the digit `0`. -/
def digits (base value : Nat) : List Char :=
  if value < base ∨ base < 2 then [digit value]
  else digits base (value / base) ++ [digit (value % base)]
termination_by value
decreasing_by exact Nat.div_lt_self (by omega) (by omega)

/-- The decimal text of an integer, with a minus sign below zero. -/
def decimal (value : Int) : String :=
  String.ofList (if value < 0 then '-' :: digits 10 value.natAbs else digits 10 value.natAbs)

/-- Reads digits of a base; there has to be at least one, and no other character. -/
def ofDigits? (base : Nat) (text : List Char) : Option Nat :=
  if text.isEmpty then none
  else text.foldlM (fun value c =>
    match digitValue? c with
    | some next => if next < base then some (value * base + next) else none
    | none => none) 0

end JavaSource.Text
