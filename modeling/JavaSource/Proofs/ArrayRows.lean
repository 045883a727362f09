import JavaSource.Proofs.Declarations
import Mathlib.Algebra.GroupWithZero.Nat

/-!
# The rows of an array

The elements of an array are written one by one, and what goes before an element depends on its
index. The text is the same as if the elements were first put into groups of four, each group into
a row, and the rows below each other. Between two elements there is one comma, and after the last
there is none.
-/
namespace JavaSource

namespace Text

/-- Lines that each begin with a line feed, and one more line feed. -/
theorem newline_append_terminated (lines : List String) :
    "\n" ++ terminated lines = String.join (lines.map ("\n" ++ ·)) ++ "\n" := by
  induction lines with
  | nil => simp
  | cons line rest ih =>
    rw [terminated_cons, List.map_cons, String.join_cons, String.append_assoc, String.append_assoc,
      ← ih, String.append_assoc]

theorem count_intercalate (c : Char) (separator : String) (texts : List String) :
    (separator.intercalate texts).toList.count c =
      (texts.map (·.toList.count c)).sum + (texts.length - 1) * separator.toList.count c := by
  induction texts with
  | nil => simp
  | cons text rest ih =>
    cases rest with
    | nil => simp
    | cons next more =>
      rw [String.intercalate_cons_cons, String.toList_append, String.toList_append,
        List.count_append, List.count_append, ih, List.map_cons (l := next :: more),
        List.sum_cons]
      simp only [List.length_cons, Nat.add_sub_cancel, Nat.succ_mul]
      omega

/-- The last text stands at the end. -/
theorem exists_intercalate_append (separator : String) (front : List String) (last : String) :
    ∃ before, separator.intercalate (front ++ [last]) = before ++ last := by
  by_cases alone : front = []
  · exact ⟨"", by simp [alone]⟩
  · refine ⟨separator.intercalate front ++ separator, ?_⟩
    rw [String.intercalate_append_of_ne_nil alone (List.cons_ne_nil last []),
      String.intercalate_singleton]

end Text

namespace ConstantArray

/-! ### Groups of four -/

theorem length_groups {α : Type} (items : List α) :
    (groups items).length = (items.length + 3) / 4 := by
  fun_induction groups items with
  | case5 a b c d rest ih =>
    simp only [List.length_cons, ih]
    omega
  | _ => simp

theorem length_le_of_mem_groups {α : Type} {items group : List α} (member : group ∈ groups items) :
    group.length ≤ 4 := by
  fun_induction groups items with
  | case5 a b c d rest ih =>
    rcases List.mem_cons.mp member with rfl | later
    · exact Nat.le_refl 4
    · exact ih later
  | _ => simp_all

theorem length_of_mem_dropLast_groups {α : Type} {items group : List α}
    (member : group ∈ (groups items).dropLast) : group.length = 4 := by
  fun_induction groups items with
  | case5 a b c d rest ih =>
    by_cases last : groups rest = []
    · simp [last] at member
    · rw [List.dropLast_cons_of_ne_nil last] at member
      rcases List.mem_cons.mp member with rfl | later
      · rfl
      · exact ih later
  | _ => simp at member

/-! ### Rows -/

theorem rowTexts_eq_mapIdx (groups : List (List String)) :
    rowTexts groups = groups.mapIdx fun index group =>
      ", ".intercalate group ++ if index + 1 < groups.length then "," else "" := by
  induction groups with
  | nil => rfl
  | cons group more ih =>
    rw [rowTexts_cons, List.mapIdx_cons, ih]
    -- An index moves by one in the rest, and so does the number of groups.
    cases more <;> simp

theorem exists_rowTexts_append (front : List (List String)) (last : List String) :
    ∃ before, rowTexts (front ++ [last]) = before ++ [", ".intercalate last] := by
  induction front with
  | nil => exact ⟨[], by simp [rowTexts]⟩
  | cons group rest ih =>
    obtain ⟨before, same⟩ := ih
    rw [List.cons_append, rowTexts_cons, same]
    exact ⟨_ :: before, rfl⟩

theorem rows_eq_mapIdx (array : ConstantArray) :
    array.rows = (groups array.literals).mapIdx fun index group =>
      ", ".intercalate group ++ if index + 1 < (groups array.literals).length then "," else "" :=
  rowTexts_eq_mapIdx (groups array.literals)

/-- The rows together have the commas between the elements, and those in the elements. -/
theorem count_rows (array : ConstantArray) :
    (array.rows.map (·.toList.count ',')).sum =
      (array.literals.map (·.toList.count ',')).sum + (array.literals.length - 1) := by
  -- With a blank between them the rows are the elements with a comma and a blank between those.
  have joined : " ".intercalate array.rows = ", ".intercalate array.literals := by
    rw [rows, intercalate_rowTexts _ (fun _ => ne_nil_of_mem_groups), flatten_groups]
  have counts : (" ".intercalate array.rows).toList.count ',' =
      (", ".intercalate array.literals).toList.count ',' := by rw [joined]
  rw [Text.count_intercalate, Text.count_intercalate] at counts
  simpa using counts

/-- No comma stands after the last element. -/
theorem exists_rowTexts_eq_append {groups : List (List String)} {front : List String}
    {last : String} (nonempty : ∀ group ∈ groups, group ≠ [])
    (elements : groups.flatten = front ++ [last]) :
    ∃ above row, rowTexts groups = above ++ [row ++ last] := by
  rcases List.eq_nil_or_concat' groups with rfl | ⟨others, group, rfl⟩
  · simp at elements
  · rcases List.eq_nil_or_concat' group with rfl | ⟨before, element, rfl⟩
    · exact absurd rfl (nonempty [] (by simp))
    · -- The last element of the last group is the last element of all.
      rw [List.flatten_append, List.flatten_singleton, ← List.append_assoc] at elements
      obtain ⟨-, same⟩ := List.append_inj' elements rfl
      obtain rfl := List.singleton_inj.mp same
      obtain ⟨above, rows⟩ := exists_rowTexts_append others (before ++ [element])
      obtain ⟨row, ended⟩ := Text.exists_intercalate_append ", " before element
      exact ⟨above, row, by rw [rows, ended]⟩

/-! ### The text of an array -/

theorem join_elementPieces_eq_rows (array : ConstantArray) (margin unit : String) :
    String.join (elementPieces margin unit 0 array.literals) =
      String.join (array.rows.map fun row => "\n" ++ (margin ++ unit ++ unit ++ row)) := by
  -- The loop writes a line end before each row; the layout counts it to the row before.
  have ended := join_elementPieces margin unit array.literals 0 rfl
  rw [if_neg (by simp), String.empty_append, Text.newline_append_terminated, List.map_map] at ended
  exact String.append_left_inj _ |>.mp ended

theorem render_array (array : ConstantArray) (context : Context) (margin : String) :
    (Member.array array).render margin context =
      array.doc.render margin ++ (margin ++ array.opening) ++
        String.join (array.rows.map fun row =>
          "\n" ++ (margin ++ context.indent.unit ++ context.indent.unit ++ row)) ++
        ("\n" ++ (margin ++ context.indent.unit ++ "\x7d;")) := by
  unfold Member.render Member.pieces pieces opening Doc.render
  simp only [String.join_append, join_elementPieces_eq_rows]
  simp only [String.join_cons, String.join_nil, String.append_empty, String.append_assoc]

/-- After its documentation an array is its opening line, the elements in rows of four, each row on
a line of its own below the margin and two units, and the closing line. Every element stands in one
row, in order; a comma ends each row but the last, so that there is one comma fewer than elements
besides those in literals, and the last element ends the last row. Whether fields are final changes
nothing. -/
theorem render_eq_rows (array : ConstantArray) (context : Context) (margin : String) :
    let unit := context.indent.unit
    let literals := array.elements.map (Literal.text array.kind)
    let groups := groups literals
    let rows := groups.mapIdx fun index group =>
      ", ".intercalate group ++ if index + 1 < groups.length then "," else ""
    (Member.array array).render margin context =
        array.doc.render margin ++
          (margin ++ ("public static final " ++ array.kind.javaType ++ "[] " ++ array.name ++
            "=\x7b")) ++
          String.join (rows.map fun row => "\n" ++ (margin ++ unit ++ unit ++ row)) ++
          ("\n" ++ (margin ++ unit ++ "\x7d;")) ∧
      groups.flatten = literals ∧
      (∀ group ∈ groups, group ≠ [] ∧ group.length ≤ 4) ∧
      (∀ group ∈ groups.dropLast, group.length = 4) ∧
      rows.length = (array.elements.length + 3) / 4 ∧
      (rows.map (·.toList.count ',')).sum =
        (literals.map (·.toList.count ',')).sum + (array.elements.length - 1) ∧
      (∀ front last, literals = front ++ [last] → ∃ above row, rows = above ++ [row ++ last]) ∧
      (∀ row ∈ rows, OneLine row) ∧
      ∀ finalFields, (Member.array array).render margin { context with finalFields } =
        (Member.array array).render margin context := by
  intro unit literals groups rows
  have same : rows = array.rows := array.rows_eq_mapIdx.symm
  have groups_nonempty : ∀ group ∈ groups, group ≠ [] := fun _ => ne_nil_of_mem_groups
  refine ⟨?_, flatten_groups literals, ?_, fun _ => length_of_mem_dropLast_groups, ?_, ?_, ?_, ?_,
    ?_⟩
  · rw [same]
    exact array.render_array context margin
  · exact fun group member => ⟨groups_nonempty group member, length_le_of_mem_groups member⟩
  · rw [List.length_mapIdx, length_groups, List.length_map]
  · have length : array.literals.length = array.elements.length := List.length_map _
    rw [same, count_rows, length]
    rfl
  · intro front last elements
    rw [same]
    apply exists_rowTexts_eq_append groups_nonempty
    rw [flatten_groups]
    exact elements
  · rw [same]
    exact array.oneLine_rows
  · intro finalFields
    rw [render_array, render_array]

/-- Elements that have commas and quotes in them, one more than a row takes. -/
def quotedArray : ConstantArray where
  kind := .string
  name := "q"
  elements := [",", "\"", "", "a, b", ",,"]

theorem render_quotedArray :
    (Member.array quotedArray).render "" {} =
        "public static final String[] q=\x7b\n" ++
          "    \",\", \"\\\"\", \"\", \"a, b\",\n    \",,\"\n  \x7d;" ∧
      ["\",\"", "\"\\\"\"", "\"\"", "\"a, b\""] ∈
        (groups (quotedArray.elements.map (Literal.text .string))).dropLast ∧
      ["\",\"", "\"\\\"\"", "\"\"", "\"a, b\""].length = 4 ∧
      OneLine "\",,\"" := by
  obtain ⟨text, -, -, full, -, -, -, single, -⟩ := render_eq_rows quotedArray {} ""
  have inside : ["\",\"", "\"\\\"\"", "\"\"", "\"a, b\""] ∈
      (groups (quotedArray.elements.map (Literal.text .string))).dropLast := by decide
  exact ⟨text.trans (by decide), inside, full _ inside, single _ (by decide)⟩

end ConstantArray

end JavaSource
