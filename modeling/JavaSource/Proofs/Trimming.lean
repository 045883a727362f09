import JavaSource.Text.Blank
import Mathlib.Data.List.DropRight
import Mathlib.Data.List.Infix

/-!
# Trimming

The two ends of a text can be trimmed in either order, and trimming a second time changes nothing.
Since only blanks go, a word without blanks stands in a text exactly if it stands in what trimming
leaves of it.
-/
namespace JavaSource.Text

/-- A character before the text goes only if it is blank and nothing else is left. -/
theorem trimEnd_cons (c : Char) (text : List Char) :
    trimEnd (c :: text) =
      if isBlank c = true ∧ trimEnd text = [] then [] else c :: trimEnd text := by
  simp only [trimEnd, List.reverse_cons, List.dropWhile_append, List.reverse_eq_nil_iff,
    List.isEmpty_iff]
  by_cases nothing : text.reverse.dropWhile isBlank = []
  · cases blank : isBlank c <;> simp [nothing, blank]
  · simp [nothing]

theorem trimEnd_trimEnd (text : List Char) : trimEnd (trimEnd text) = trimEnd text :=
  List.rdropWhile_idempotent isBlank text

/-- What ends the text can be trimmed before or after a character is put in front. -/
theorem trimEnd_cons_trimEnd (c : Char) (text : List Char) :
    trimEnd (c :: trimEnd text) = trimEnd (c :: text) := by
  rw [trimEnd_cons, trimEnd_trimEnd, trimEnd_cons]

theorem trimEnd_trimStart (text : List Char) :
    trimEnd (trimStart text) = trimStart (trimEnd text) := by
  induction text with
  | nil => rfl
  | cons c rest ih =>
    cases blank : isBlank c with
    | true =>
      have start : trimStart (c :: rest) = trimStart rest := List.dropWhile_cons_of_pos blank
      rw [start, ih, trimEnd_cons]
      split
      next gone => rw [gone.2]
      next => exact (List.dropWhile_cons_of_pos blank).symm
    | false =>
      -- A visible character is the start of the text before and after its end is trimmed.
      have start (more : List Char) : trimStart (c :: more) = c :: more :=
        List.dropWhile_cons_of_neg (by simp [blank])
      rw [start, trimEnd_cons, if_neg (by simp [blank]), start]

theorem trimChars_trimChars (text : List Char) : trimChars (trimChars text) = trimChars text := by
  have start : trimStart (trimStart (trimEnd text)) = trimStart (trimEnd text) :=
    List.dropWhile_idempotent isBlank _
  rw [trimChars, trimChars, trimEnd_trimStart text, start, trimEnd_trimStart, trimEnd_trimEnd]

theorem trim_trim (text : String) : trim (trim text) = trim text := by
  rw [trim, toList_trim, trimChars_trimChars, trim]

/-- A word without blanks does not begin in the blanks that start a text. -/
theorem infix_trimStart_iff {word : List Char} (visible : ∀ c ∈ word, isBlank c = false)
    (text : List Char) : word <:+: trimStart text ↔ word <:+: text := by
  induction text with
  | nil => rfl
  | cons c rest ih =>
    cases blank : isBlank c with
    | false => rw [trimStart, List.dropWhile_cons_of_neg (by simp [blank])]
    | true =>
      rw [trimStart, List.dropWhile_cons_of_pos blank, ← trimStart, ih, List.infix_cons_iff]
      constructor
      · exact .inr
      · rintro (starts | later)
        · cases word with
          | nil => exact List.nil_infix
          | cons d more =>
            obtain ⟨rfl, -⟩ := List.cons_prefix_cons.mp starts
            rw [visible d List.mem_cons_self] at blank
            cases blank
        · exact later

theorem infix_trimEnd_iff {word : List Char} (visible : ∀ c ∈ word, isBlank c = false)
    (text : List Char) : word <:+: trimEnd text ↔ word <:+: text := by
  have reversed : ∀ c ∈ word.reverse, isBlank c = false :=
    fun c member => visible c (List.mem_reverse.mp member)
  rw [← List.reverse_infix, trimEnd, List.reverse_reverse, ← trimStart,
    infix_trimStart_iff reversed, List.reverse_infix]

theorem infix_trim_iff {word : List Char} (visible : ∀ c ∈ word, isBlank c = false)
    (text : String) : word <:+: (trim text).toList ↔ word <:+: text.toList := by
  rw [toList_trim, trimChars, infix_trimEnd_iff visible, infix_trimStart_iff visible]

end JavaSource.Text
