/-!
# Delimited sequences

A sequence of items is written item by item and closed by a mark. If no item begins like the mark,
and where an item ends can be told from its writing, then the items can be told from the whole.
-/
namespace JavaSource.Delimited

variable {α β γ : Type}

/-- What is read of the items, and what follows the mark, is the same in equal writings. -/
theorem flatMap_inj {write : α → List β} {read : α → γ} {close : β} {first second : List α}
    (ends : ∀ a ∈ first, ∀ b ∈ second, ∀ rest more, write a ++ rest = write b ++ more →
      read a = read b ∧ rest = more)
    (opens : ∀ a, a ∈ first ∨ a ∈ second → ∃ mark rest, write a = mark :: rest ∧ mark ≠ close)
    {left right : List β}
    (same : first.flatMap write ++ close :: left = second.flatMap write ++ close :: right) :
    first.map read = second.map read ∧ left = right := by
  induction first generalizing second with
  | nil =>
    cases second with
    | nil => exact ⟨rfl, (List.cons.inj same).2⟩
    | cons b others =>
      obtain ⟨mark, rest, begins, other⟩ := opens b (.inr List.mem_cons_self)
      rw [List.flatMap_cons, begins] at same
      exact absurd (List.cons.inj same).1.symm other
  | cons a items ih =>
    cases second with
    | nil =>
      obtain ⟨mark, rest, begins, other⟩ := opens a (.inl List.mem_cons_self)
      rw [List.flatMap_cons, begins] at same
      exact absurd (List.cons.inj same).1 other
    | cons b others =>
      rw [List.flatMap_cons, List.flatMap_cons, List.append_assoc, List.append_assoc] at same
      obtain ⟨here, later⟩ := ends a List.mem_cons_self b List.mem_cons_self _ _ same
      obtain ⟨there, after⟩ := ih
        (fun a mem b other => ends a (List.mem_cons_of_mem _ mem) b (List.mem_cons_of_mem _ other))
        (fun a mem => opens a (mem.imp (List.mem_cons_of_mem _) (List.mem_cons_of_mem _))) later
      exact ⟨by rw [List.map_cons, List.map_cons, here, there], after⟩

/-- Items that are written as one mark each. -/
theorem map_inj {mark : α → β} {close : β} {first second : List α} {left right : List β}
    (different : ∀ a b, mark a = mark b → a = b)
    (opens : ∀ a, a ∈ first ∨ a ∈ second → mark a ≠ close)
    (same : first.map mark ++ close :: left = second.map mark ++ close :: right) :
    first = second ∧ left = right := by
  rw [List.map_eq_flatMap, List.map_eq_flatMap] at same
  have read : first.map id = second.map id ∧ left = right := by
    refine flatMap_inj ?_ (fun a mem => ⟨mark a, [], rfl, opens a mem⟩) same
    intro a _ b _ rest more equal
    obtain ⟨here, later⟩ := List.cons.inj equal
    exact ⟨different a b here, later⟩
  simpa using read

/-- Everything before the first mark of a kind. -/
theorem append_inj {close : β} {first second left right : List β} (none_first : close ∉ first)
    (none_second : close ∉ second) (same : first ++ close :: left = second ++ close :: right) :
    first = second ∧ left = right := by
  have marks : first.map id ++ close :: left = second.map id ++ close :: right := by
    simpa using same
  refine map_inj (fun _ _ equal => equal) ?_ marks
  rintro a (mem | mem) rfl
  · exact none_first mem
  · exact none_second mem

/-- A mark that is there or not, before something that does not begin with it. -/
theorem optional_inj {mark : β} {flag other : Bool} {rest more : List β}
    (fresh : rest.head? ≠ some mark) (other_fresh : more.head? ≠ some mark)
    (same : (if flag then [mark] else []) ++ rest = (if other then [mark] else []) ++ more) :
    flag = other ∧ rest = more := by
  cases flag <;> cases other
  · exact ⟨rfl, same⟩
  · exact absurd (congrArg List.head? same) fresh
  · exact absurd (congrArg List.head? same).symm other_fresh
  · exact ⟨rfl, (List.cons.inj same).2⟩

end JavaSource.Delimited
