import JavaSource.Text.Lines

/-!
# Texts made of lines

A text is a list of lines, each ended by a line feed, less the line feed of the last.
-/
namespace JavaSource.Text

/-- The lines one after another, each with a line feed after it. -/
def terminated (lines : List String) : String := String.join (lines.map (· ++ "\n"))

@[simp] theorem terminated_nil : terminated [] = "" := by simp [terminated]

@[simp] theorem terminated_cons (line : String) (rest : List String) :
    terminated (line :: rest) = line ++ "\n" ++ terminated rest := by simp [terminated]

@[simp] theorem terminated_append (first second : List String) :
    terminated (first ++ second) = terminated first ++ terminated second := by simp [terminated]

/-- Items that are written as lines are written as the lines of all of them. -/
theorem join_flatMap_eq_terminated {α : Type} (pieces lines : α → List String) (items : List α)
    (same : ∀ item ∈ items, String.join (pieces item) = terminated (lines item)) :
    String.join (items.flatMap pieces) = terminated (items.flatMap lines) := by
  induction items with
  | nil => simp
  | cons item rest ih =>
    have here := same item List.mem_cons_self
    have there := ih (fun other mem => same other (List.mem_cons_of_mem _ mem))
    simp [here, there]

theorem join_flatMap_eq_terminated_map {α : Type} (pieces : α → List String) (line : α → String)
    (items : List α) (same : ∀ item, String.join (pieces item) = line item ++ "\n") :
    String.join (items.flatMap pieces) = terminated (items.map line) := by
  rw [List.map_eq_flatMap]
  exact join_flatMap_eq_terminated pieces _ items (fun item _ => by simp [same item])

/-- Only the last separator tells texts that are joined by it from texts that each end in it. -/
theorem intercalate_append_separator (separator : String) (texts : List String)
    (nonempty : texts ≠ []) :
    separator.intercalate texts ++ separator = String.join (texts.map (· ++ separator)) := by
  induction texts with
  | nil => exact absurd rfl nonempty
  | cons text rest ih =>
    cases rest with
    | nil => simp
    | cons next more =>
      rw [String.intercalate_cons_cons, List.map_cons, String.join_cons,
        ← ih (List.cons_ne_nil _ _)]
      simp only [String.append_assoc]

theorem intercalate_append_newline (lines : List String) (nonempty : lines ≠ []) :
    "\n".intercalate lines ++ "\n" = terminated lines :=
  intercalate_append_separator "\n" lines nonempty

end JavaSource.Text
