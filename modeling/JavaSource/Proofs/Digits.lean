import JavaSource.Text.Numeral
import Mathlib.Algebra.Group.Nat.Defs
import Mathlib.Data.List.Basic

/-!
# Numerals read back

The digits of a value, as few as it needs or a fixed number of them, read back as the value. So
different values have different numerals.
-/
namespace JavaSource.Text

theorem exists_digit_of_mem_fixedDigits {base width value : Nat} {c : Char} (positive : 0 < base)
    (member : c ∈ fixedDigits base width value) : ∃ part < base, c = digit part := by
  induction width generalizing value with
  | zero => cases member
  | succ width ih =>
    rw [fixedDigits, List.mem_append, List.mem_singleton] at member
    rcases member with higher | rfl
    · exact ih higher
    · exact ⟨_, Nat.mod_lt _ positive, rfl⟩

theorem exists_digit_of_mem_digits {base value : Nat} {c : Char} (several : 2 ≤ base)
    (member : c ∈ digits base value) : ∃ part < base, c = digit part := by
  fun_induction digits base value with
  | case1 value small =>
    rw [List.mem_singleton] at member
    exact ⟨value, by omega, member⟩
  | case2 value large ih =>
    rw [List.mem_append, List.mem_singleton] at member
    rcases member with higher | rfl
    · exact ih higher
    · exact ⟨_, Nat.mod_lt _ (by omega), rfl⟩

/-- What holds of each digit holds of all characters of a numeral. -/
theorem forall_mem_fixedDigits {P : Char → Prop} {base : Nat} (positive : 0 < base)
    (each : ∀ part < base, P (digit part)) (width value : Nat) :
    ∀ c ∈ fixedDigits base width value, P c := by
  intro c member
  obtain ⟨part, small, rfl⟩ := exists_digit_of_mem_fixedDigits positive member
  exact each part small

theorem forall_mem_digits {P : Char → Prop} {base : Nat} (several : 2 ≤ base)
    (each : ∀ part < base, P (digit part)) (value : Nat) : ∀ c ∈ digits base value, P c := by
  intro c member
  obtain ⟨part, small, rfl⟩ := exists_digit_of_mem_digits several member
  exact each part small

/-- Reads one more digit of a base. -/
def readDigit (base value : Nat) (c : Char) : Option Nat :=
  match digitValue? c with
  | some next => if next < base then some (value * base + next) else none
  | none => none

theorem readDigit_digit {base part : Nat} (value : Nat) (known : base ≤ 16) (small : part < base) :
    readDigit base value (digit part) = some (value * base + part) := by
  simp [readDigit, digitValue?_digit part (by omega), small]

theorem ofDigits?_eq (base : Nat) (text : List Char) :
    ofDigits? base text = if text.isEmpty then none else text.foldlM (readDigit base) 0 := rfl

theorem foldlM_readDigit_fixedDigits {base : Nat} (positive : 0 < base) (known : base ≤ 16)
    (width start value : Nat) :
    (fixedDigits base width value).foldlM (readDigit base) start =
      some (start * base ^ width + value % base ^ width) := by
  induction width generalizing value with
  | zero => simp [fixedDigits, Nat.mod_one]
  | succ width ih =>
    have split : value % base ^ (width + 1) =
        value % base + base * (value / base % base ^ width) := by
      rw [Nat.pow_succ', Nat.mod_mul]
    rw [fixedDigits, List.foldlM_append, ih, split, Nat.pow_succ]
    simp only [Option.bind_eq_bind, Option.bind_some, List.foldlM_cons, List.foldlM_nil,
      readDigit_digit _ known (Nat.mod_lt value positive)]
    simp [Nat.add_mul, Nat.mul_assoc, Nat.mul_comm base, Nat.add_comm, Nat.add_left_comm]

theorem foldlM_readDigit_digits {base : Nat} (several : 2 ≤ base) (known : base ≤ 16)
    (value : Nat) : (digits base value).foldlM (readDigit base) 0 = some value := by
  fun_induction digits base value with
  | case1 value small => simp [readDigit_digit 0 known (show value < base by omega)]
  | case2 value large ih =>
    have part : value % base < base := Nat.mod_lt _ (by omega)
    rw [List.foldlM_append, ih]
    simp [readDigit_digit _ known part, Nat.div_add_mod']

/-- As many digits read back as the part of the value that they have room for. -/
theorem ofDigits?_fixedDigits_mod {base width : Nat} (positive : 0 < base) (known : base ≤ 16)
    (some_digit : 0 < width) (value : Nat) :
    ofDigits? base (fixedDigits base width value) = some (value % base ^ width) := by
  have nonempty : fixedDigits base width value ≠ [] := by
    rw [← List.length_pos_iff, length_fixedDigits]
    exact some_digit
  rw [ofDigits?_eq, if_neg (by simpa using nonempty),
    foldlM_readDigit_fixedDigits positive known, Nat.zero_mul, Nat.zero_add]

theorem ofDigits?_fixedDigits {base width value : Nat} (positive : 0 < base) (known : base ≤ 16)
    (some_digit : 0 < width) (small : value < base ^ width) :
    ofDigits? base (fixedDigits base width value) = some value := by
  rw [ofDigits?_fixedDigits_mod positive known some_digit, Nat.mod_eq_of_lt small]

theorem digits_ne_nil (base value : Nat) : digits base value ≠ [] := by
  unfold digits
  split <;> simp

theorem ofDigits?_digits {base : Nat} (several : 2 ≤ base) (known : base ≤ 16) (value : Nat) :
    ofDigits? base (digits base value) = some value := by
  rw [ofDigits?_eq, if_neg (by simpa using digits_ne_nil base value),
    foldlM_readDigit_digits several known]

/-- Only zero is written with a zero in front. -/
theorem head?_digits {base value : Nat} (several : 2 ≤ base) (known : base ≤ 16)
    (positive : 0 < value) : (digits base value).head? ≠ some '0' := by
  have no_zero : ∀ part < 16, 0 < part → digit part ≠ '0' := by decide
  fun_induction digits base value with
  | case1 value small => simpa using no_zero value (by omega) positive
  | case2 value large ih =>
    rw [List.head?_append_of_ne_nil _ (digits_ne_nil _ _)]
    exact ih (Nat.div_pos (by omega) (by omega))

theorem fixedDigits_inj {base width first second : Nat} (positive : 0 < base) (known : base ≤ 16)
    (first_lt : first < base ^ width) (second_lt : second < base ^ width)
    (same : fixedDigits base width first = fixedDigits base width second) : first = second := by
  have read := foldlM_readDigit_fixedDigits positive known width 0
  have values := (read first).symm.trans ((congrArg _ same).trans (read second))
  simpa [Nat.mod_eq_of_lt first_lt, Nat.mod_eq_of_lt second_lt] using values

theorem digits_inj {base first second : Nat} (several : 2 ≤ base) (known : base ≤ 16)
    (same : digits base first = digits base second) : first = second := by
  have read := foldlM_readDigit_digits several known
  have values := (read first).symm.trans ((congrArg _ same).trans (read second))
  exact Option.some.inj values

theorem mem_decimal {value : Int} {c : Char} (member : c ∈ (decimal value).toList) :
    c = '-' ∨ ∃ part < 10, c = digit part := by
  unfold decimal at member
  rw [String.toList_ofList] at member
  split at member
  · rcases List.mem_cons.mp member with minus | rest
    · exact .inl minus
    · exact .inr (exists_digit_of_mem_digits (by decide) rest)
  · exact .inr (exists_digit_of_mem_digits (by decide) member)

/-- The digits of a decimal are no minus sign, so the sign of the integer can be told. -/
theorem decimal_inj {first second : Int} (same : decimal first = decimal second) :
    first = second := by
  have no_minus (value : Nat) (rest : List Char) : digits 10 value ≠ '-' :: rest := by
    intro begins
    have minus : '-' ∈ digits 10 value := by
      rw [begins]
      exact List.mem_cons_self
    have none_minus : ¬ ∃ part < 10, '-' = digit part := by decide
    exact none_minus (exists_digit_of_mem_digits (by decide) minus)
  unfold decimal at same
  rw [String.ofList_inj] at same
  split at same <;> split at same
  · have values := digits_inj (by decide) (by decide) (List.cons.inj same).2
    omega
  · exact absurd same.symm (no_minus _ _)
  · exact absurd same (no_minus _ _)
  · have values := digits_inj (by decide) (by decide) same
    omega

end JavaSource.Text
