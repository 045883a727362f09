import JavaSource.Proofs.Trimming

/-!
# Blanks around a text

What trimming leaves has no blank at either end, and every text is what trimming leaves of it with
blanks around it. A text without blanks at its ends comes back from whatever blanks stand around it.
-/
namespace JavaSource.Text

/-- The text neither begins nor ends with a blank. -/
structure Trimmed (text : String) : Prop where
  first : ∀ c ∈ text.toList.head?, isBlank c = false
  last : ∀ c ∈ text.toList.getLast?, isBlank c = false

/-- Blanks to stand before and after a text. -/
structure Padding where
  before : String := ""
  after : String := ""
  blank_before : ∀ c ∈ before.toList, isBlank c = true := by simp
  blank_after : ∀ c ∈ after.toList, isBlank c = true := by simp

def Padding.around (padding : Padding) (text : String) : String :=
  padding.before ++ text ++ padding.after

/-! ### Blanks that go -/

theorem trimStart_append {blanks : List Char} (blank : ∀ c ∈ blanks, isBlank c = true)
    (text : List Char) : trimStart (blanks ++ text) = trimStart text :=
  List.dropWhile_append_of_pos blank

theorem trimEnd_append {blanks : List Char} (blank : ∀ c ∈ blanks, isBlank c = true)
    (text : List Char) : trimEnd (text ++ blanks) = trimEnd text := by
  have reversed : ∀ c ∈ blanks.reverse, isBlank c = true := fun c member =>
    blank c (List.mem_reverse.mp member)
  rw [trimEnd, List.reverse_append, List.dropWhile_append_of_pos reversed, trimEnd]

theorem trimStart_eq_self {text : List Char} (visible : ∀ c ∈ text.head?, isBlank c = false) :
    trimStart text = text := by
  cases text with
  | nil => rfl
  | cons c rest => exact List.dropWhile_cons_of_neg (by simp [visible c rfl])

theorem trimEnd_eq_self {text : List Char} (visible : ∀ c ∈ text.getLast?, isBlank c = false) :
    trimEnd text = text := by
  have reversed : trimStart text.reverse = text.reverse :=
    trimStart_eq_self (by rwa [List.head?_reverse])
  rw [trimEnd, ← trimStart, reversed, List.reverse_reverse]

/-- The blanks around a text go, and nothing of it does. -/
theorem trim_around {text : String} (trimmed : Trimmed text) (padding : Padding) :
    trim (padding.around text) = text := by
  rw [← String.toList_inj, toList_trim, Padding.around, String.toList_append, String.toList_append,
    trimChars, List.append_assoc, trimStart_append padding.blank_before, trimEnd_trimStart,
    trimEnd_append padding.blank_after, trimEnd_eq_self trimmed.last,
    trimStart_eq_self trimmed.first]

/-! ### What is left -/

theorem isBlank_of_mem_head?_trimStart {text : List Char} {c : Char}
    (first : c ∈ (trimStart text).head?) : isBlank c = false := by
  have visible := List.head?_dropWhile_not isBlank text
  rw [← trimStart, Option.mem_def.mp first] at visible
  simpa using visible

theorem trimmed_trim (text : String) : Trimmed (trim text) := by
  constructor
  · intro c first
    rw [toList_trim, trimChars, trimEnd_trimStart] at first
    exact isBlank_of_mem_head?_trimStart first
  · intro c last
    rw [toList_trim, trimChars, trimEnd, List.getLast?_reverse] at last
    exact isBlank_of_mem_head?_trimStart last

/-- A text has no blanks at its ends exactly if trimming leaves it as it is. -/
theorem trimmed_iff (text : String) : Trimmed text ↔ trim text = text := by
  constructor
  · intro trimmed
    have kept := trim_around trimmed {}
    simpa [Padding.around] using kept
  · intro kept
    exact kept ▸ trimmed_trim text

instance (text : String) : Decidable (Trimmed text) := decidable_of_iff _ (trimmed_iff text).symm

theorem exists_eq_append_trimStart (text : List Char) :
    ∃ blanks, (∀ c ∈ blanks, isBlank c = true) ∧ text = blanks ++ trimStart text :=
  ⟨text.takeWhile isBlank, fun _ member => List.mem_takeWhile_imp member,
    List.takeWhile_append_dropWhile.symm⟩

theorem exists_eq_trimEnd_append (text : List Char) :
    ∃ blanks, (∀ c ∈ blanks, isBlank c = true) ∧ text = trimEnd text ++ blanks := by
  obtain ⟨blanks, blank, split⟩ := exists_eq_append_trimStart text.reverse
  refine ⟨blanks.reverse, fun c member => blank c (List.mem_reverse.mp member), ?_⟩
  rw [trimEnd, ← trimStart, ← List.reverse_append, ← split, List.reverse_reverse]

/-- Every text has blanks around what trimming leaves of it. -/
theorem exists_eq_around (text : String) :
    ∃ padding : Padding, text = padding.around (trim text) := by
  obtain ⟨before, blank_before, start⟩ := exists_eq_append_trimStart text.toList
  obtain ⟨after, blank_after, finish⟩ := exists_eq_trimEnd_append (trimStart text.toList)
  refine ⟨⟨String.ofList before, String.ofList after, by simpa using blank_before,
    by simpa using blank_after⟩, ?_⟩
  rw [← String.toList_inj]
  simp only [Padding.around, String.toList_append, String.toList_ofList, toList_trim, trimChars]
  rw [List.append_assoc, ← finish, ← start]

end JavaSource.Text
