import JavaSource.Proofs.Digits
import JavaSource.ResourceId
import Mathlib.Data.String.Basic

/-!
# Packed parts in numbers and in numerals

A number below a product is two numbers in one, and comparing two of them is comparing the upper
parts first. This is so for the bits of an identifier, whose parts are a package, a type and an
entry, and for a numeral, whose last digits are a numeral of their own. So an identifier, its parts
and its text all say the same and have one order.
-/
namespace JavaSource

/-! ### Comparing -/

/-- Two ways to compare agree when they have the same notions of less and of equal. -/
theorem compareOfLessAndEq_congr {α β : Type} [LT α] [DecidableLT α] [DecidableEq α] [LT β]
    [DecidableLT β] [DecidableEq β] {a b : α} {c d : β} (less : a < b ↔ c < d)
    (equal : a = b ↔ c = d) : compareOfLessAndEq a b = compareOfLessAndEq c d := by
  simp only [compareOfLessAndEq, less, equal]

/-- Of two numbers in one the upper decides, and the lower where the upper are equal. -/
theorem compare_mul_add {upper upper' lower lower' bound : Nat} (small : lower < bound)
    (small' : lower' < bound) :
    compare (upper * bound + lower) (upper' * bound + lower') =
      (compare upper upper').then (compare lower lower') := by
  have step {low high : Nat} (less : low < high) : low * bound + bound ≤ high * bound := by
    rw [← Nat.succ_mul]
    exact Nat.mul_le_mul_right bound less
  rcases Nat.lt_trichotomy upper upper' with less | rfl | greater
  · have whole : upper * bound + lower < upper' * bound + lower' := by
      have gap := step less
      omega
    rw [Nat.compare_eq_lt.mpr less, Nat.compare_eq_lt.mpr whole]
    rfl
  · rw [Nat.compare_eq_eq.mpr rfl, Ordering.eq_then]
    exact compareOfLessAndEq_congr Nat.add_lt_add_iff_left Nat.add_left_cancel_iff
  · have whole : upper' * bound + lower' < upper * bound + lower := by
      have gap := step greater
      omega
    rw [Nat.compare_eq_gt.mpr greater, Nat.compare_eq_gt.mpr whole]
    rfl

namespace Text

/-! ### Numerals of a fixed width -/

def IsLowercaseHex (c : Char) : Prop := ('0' ≤ c ∧ c ≤ '9') ∨ ('a' ≤ c ∧ c ≤ 'f')

instance : DecidablePred IsLowercaseHex :=
  fun c => inferInstanceAs (Decidable (('0' ≤ c ∧ c ≤ '9') ∨ ('a' ≤ c ∧ c ≤ 'f')))

theorem isLowercaseHex_digit : ∀ part < 16, IsLowercaseHex (digit part) := by decide

theorem digit_lt : ∀ high < 16, ∀ low < high, digit low < digit high := by decide

/-- The last digits of a numeral are a numeral of their own, and so are those before them. -/
theorem fixedDigits_add (base first last value : Nat) :
    fixedDigits base (first + last) value =
      fixedDigits base first (value / base ^ last) ++ fixedDigits base last value := by
  induction last generalizing value with
  | zero => simp [fixedDigits]
  | succ last ih =>
    rw [← Nat.add_assoc, fixedDigits, ih, fixedDigits, List.append_assoc, Nat.div_div_eq_div_mul,
      ← Nat.pow_succ']

theorem append_lt_append {first second : List Char} (less : first < second)
    (same : first.length = second.length) (more more' : List Char) :
    first ++ more < second ++ more' := by
  induction less with
  | nil => cases same
  | rel less => exact .rel less
  | cons _ ih => exact .cons (ih (Nat.succ.inj same))

/-- Numerals of one width are ordered as their values are. -/
theorem fixedDigits_lt {base width first second : Nat} (positive : 0 < base) (known : base ≤ 16)
    (less : first < second) (small : second < base ^ width) :
    fixedDigits base width first < fixedDigits base width second := by
  induction width generalizing first second with
  | zero => rw [Nat.pow_zero] at small; omega
  | succ width ih =>
    rw [fixedDigits, fixedDigits]
    have upper : first / base ≤ second / base := Nat.div_le_div_right (Nat.le_of_lt less)
    rcases Nat.lt_or_eq_of_le upper with differs | equal
    · -- The digits before the last decide, whatever the last ones are.
      have fits : second / base < base ^ width :=
        Nat.div_lt_of_lt_mul (by rwa [← Nat.pow_succ'])
      exact append_lt_append (ih differs fits) (by simp only [length_fixedDigits]) _ _
    · -- Only the last digits differ.
      have lower : first % base < second % base := by
        have first_sum := Nat.div_add_mod first base
        have second_sum := Nat.div_add_mod second base
        rw [equal] at first_sum
        omega
      have digits := digit_lt _ (Nat.lt_of_lt_of_le (Nat.mod_lt second positive) known) _ lower
      rw [equal]
      exact List.append_left_lt (List.Lex.rel digits)

end Text

namespace ResourceId

/-! ### The parts of the bits -/

theorem toNat_package (id : ResourceId) : id.package.toNat = id.bits.toNat / 2 ^ 24 := by
  have bound : id.bits.toNat < 2 ^ 32 := id.bits.toNat_lt
  simp only [package, UInt32.toNat_toUInt8, UInt32.toNat_shiftRight, Nat.shiftRight_eq_div_pow]
  change id.bits.toNat / 2 ^ 24 % 2 ^ 8 = _
  omega

theorem toNat_type (id : ResourceId) : id.type.toNat = id.bits.toNat / 2 ^ 16 % 2 ^ 8 := by
  simp only [type, UInt32.toNat_toUInt8, UInt32.toNat_shiftRight, Nat.shiftRight_eq_div_pow]
  rfl

theorem toNat_entry (id : ResourceId) : id.entry.toNat = id.bits.toNat % 2 ^ 16 := by
  rw [entry, UInt32.toNat_toUInt16]

/-- The shifted parts have no bit in common, so joining their bits is adding them. -/
theorem toNat_ofParts (package type : UInt8) (entry : UInt16) :
    (ofParts package type entry).bits.toNat =
      (package.toNat * 2 ^ 8 + type.toNat) * 2 ^ 16 + entry.toNat := by
  have package_lt : package.toNat < 2 ^ 8 := package.toNat_lt
  have type_lt : type.toNat < 2 ^ 8 := type.toNat_lt
  have entry_lt : entry.toNat < 2 ^ 16 := entry.toNat_lt
  have upper : package.toNat <<< 24 % 2 ^ 32 = package.toNat <<< 8 <<< 16 := by
    simp only [Nat.shiftLeft_eq]
    omega
  have middle : type.toNat <<< 16 % 2 ^ 32 = type.toNat <<< 16 := by
    simp only [Nat.shiftLeft_eq]
    omega
  simp only [ofParts, UInt32.toNat_or, UInt32.toNat_shiftLeft, UInt8.toNat_toUInt32,
    UInt16.toNat_toUInt32]
  change package.toNat <<< 24 % 2 ^ 32 ||| type.toNat <<< 16 % 2 ^ 32 ||| entry.toNat = _
  rw [upper, middle, ← Nat.shiftLeft_or_distrib, ← Nat.shiftLeft_add_eq_or_of_lt type_lt,
    ← Nat.shiftLeft_add_eq_or_of_lt entry_lt, Nat.shiftLeft_eq, Nat.shiftLeft_eq]

theorem toNat_bits (id : ResourceId) :
    id.bits.toNat = (id.package.toNat * 2 ^ 8 + id.type.toNat) * 2 ^ 16 + id.entry.toNat := by
  rw [toNat_package, toNat_type, toNat_entry]
  omega

theorem eq_of_toNat_bits {first second : ResourceId}
    (same : first.bits.toNat = second.bits.toNat) : first = second :=
  congrArg mk (UInt32.toNat_inj.mp same)

theorem ofParts_parts (id : ResourceId) : ofParts id.package id.type id.entry = id :=
  eq_of_toNat_bits (by rw [toNat_ofParts, ← toNat_bits])

theorem parts_ofParts (package type : UInt8) (entry : UInt16) :
    (ofParts package type entry).package = package ∧ (ofParts package type entry).type = type ∧
      (ofParts package type entry).entry = entry := by
  have type_lt : type.toNat < 2 ^ 8 := type.toNat_lt
  have entry_lt : entry.toNat < 2 ^ 16 := entry.toNat_lt
  refine ⟨UInt8.toNat_inj.mp ?_, UInt8.toNat_inj.mp ?_, UInt16.toNat_inj.mp ?_⟩
  · rw [toNat_package, toNat_ofParts]
    omega
  · rw [toNat_type, toNat_ofParts]
    omega
  · rw [toNat_entry, toNat_ofParts]
    omega

/-! ### The parts of the text -/

/-- A text that shows the parts, each with a fixed number of lowercase digits. -/
def Shows (text : String) (package type entry : Nat) : Prop :=
  ∃ packageDigits typeDigits entryDigits : List Char,
    text = String.ofList ('0' :: 'x' :: (packageDigits ++ typeDigits ++ entryDigits)) ∧
    (packageDigits.length = 2 ∧ typeDigits.length = 2 ∧ entryDigits.length = 4) ∧
    (∀ c ∈ packageDigits ++ typeDigits ++ entryDigits, Text.IsLowercaseHex c) ∧
    Text.ofDigits? 16 packageDigits = some package ∧ Text.ofDigits? 16 typeDigits = some type ∧
    Text.ofDigits? 16 entryDigits = some entry

theorem shows_text (id : ResourceId) :
    Shows id.text id.package.toNat id.type.toNat id.entry.toNat := by
  have bound : id.bits.toNat < 2 ^ 32 := id.bits.toNat_lt
  have split := Text.fixedDigits_add 16 4 4 id.bits.toNat
  rw [Text.fixedDigits_add 16 2 2] at split
  have read (width value : Nat) := @Text.ofDigits?_fixedDigits_mod 16 (width + 1) (by decide)
    (by decide) (Nat.succ_pos width) value
  refine ⟨_, _, _, congrArg (fun digits => String.ofList ('0' :: 'x' :: digits)) split, ?_, ?_, ?_,
    ?_, ?_⟩
  · simp only [Text.length_fixedDigits, and_self]
  · rw [← split]
    exact Text.forall_mem_fixedDigits (by decide) Text.isLowercaseHex_digit 8 _
  · rw [read, toNat_package]
    congr 1
    omega
  · rw [read, toNat_type]
    congr 1
  · rw [read, toNat_entry]
    congr 1

example : (ofParts 0x7f 0x01 0x0003).text = "0x7f010003" := by decide

/-! ### One order -/

theorem compare_eq_compare_toNat (first second : ResourceId) :
    compare first second = compare first.bits.toNat second.bits.toNat := by
  have bits : compare first second = (compare first.bits second.bits).then .eq := rfl
  rw [bits, Ordering.then_eq]
  exact compareOfLessAndEq_congr UInt32.lt_iff_toNat_lt UInt32.toNat_inj.symm

theorem compare_eq_compareLex_parts (first second : ResourceId) :
    compare first second =
      compareLex (compareOn package) (compareLex (compareOn type) (compareOn entry))
        first second := by
  have packages : compare first.package.toNat second.package.toNat =
      compareOn package first second :=
    compareOfLessAndEq_congr UInt8.lt_iff_toNat_lt.symm UInt8.toNat_inj
  have types : compare first.type.toNat second.type.toNat = compareOn type first second :=
    compareOfLessAndEq_congr UInt8.lt_iff_toNat_lt.symm UInt8.toNat_inj
  have entries : compare first.entry.toNat second.entry.toNat = compareOn entry first second :=
    compareOfLessAndEq_congr UInt16.lt_iff_toNat_lt.symm UInt16.toNat_inj
  rw [compare_eq_compare_toNat, toNat_bits first, toNat_bits second,
    compare_mul_add first.entry.toNat_lt second.entry.toNat_lt,
    compare_mul_add first.type.toNat_lt second.type.toNat_lt, packages, types, entries,
    Ordering.then_assoc]
  rfl

theorem text_lt_of_lt {first second : ResourceId}
    (less : first.bits.toNat < second.bits.toNat) : first.text < second.text := by
  have small : second.bits.toNat < 16 ^ 8 := second.bits.toNat_lt
  have digits := Text.fixedDigits_lt (by decide) (by decide) less small
  rw [String.lt_iff_toList_lt, text, text, String.toList_ofList, String.toList_ofList]
  exact .cons (.cons digits)

theorem compare_eq_compareOn_text (first second : ResourceId) :
    compare first second = compareOn text first second := by
  rw [compare_eq_compare_toNat, compareOn]
  rcases Nat.lt_trichotomy first.bits.toNat second.bits.toNat with less | same | greater
  · rw [Nat.compare_eq_lt.mpr less, compare_lt_iff_lt.mpr (text_lt_of_lt less)]
  · obtain rfl := eq_of_toNat_bits same
    rw [Nat.compare_eq_eq.mpr rfl, compare_eq_iff_eq.mpr rfl]
  · rw [Nat.compare_eq_gt.mpr greater, compare_gt_iff_gt.mpr (text_lt_of_lt greater)]

/-- Packing undoes taking the parts, and taking the parts undoes packing. The text of an identifier
shows its parts, and identifiers compare as their parts do, one after another, and as their texts
do. -/
theorem parts_text_compare :
    (∀ id : ResourceId, ofParts id.package id.type id.entry = id) ∧
      (∀ package type entry, (ofParts package type entry).package = package ∧
        (ofParts package type entry).type = type ∧ (ofParts package type entry).entry = entry) ∧
      (∀ id : ResourceId, Shows id.text id.package.toNat id.type.toNat id.entry.toNat) ∧
      ∀ first second : ResourceId,
        compare first second =
          compareLex (compareOn package) (compareLex (compareOn type) (compareOn entry))
            first second ∧
        compare first second = compareOn text first second :=
  ⟨ofParts_parts, parts_ofParts, shows_text, fun first second =>
    ⟨compare_eq_compareLex_parts first second, compare_eq_compareOn_text first second⟩⟩

end ResourceId

end JavaSource
