import JavaSource.Proofs.OneLine

/-!
# Declaration lines read back

The line that opens a member tells by its end which kind of member it opens, and then its parts can
be read back from it.
-/
namespace JavaSource

/-- An ASCII letter or digit, `_` or `$`. -/
def isNameChar (c : Char) : Bool := c.isAlphanum || c == '_' || c == '$'

def IsName (name : String) : Prop := name ≠ "" ∧ name.toList.all isNameChar = true

instance (name : String) : Decidable (IsName name) :=
  inferInstanceAs (Decidable (name ≠ "" ∧ name.toList.all isNameChar = true))

theorem IsName.not_mem {name : String} (valid : IsName name) {c : Char}
    (other : isNameChar c = false) : c ∉ name.toList := by
  intro member
  rw [List.all_eq_true.mp valid.2 c member] at other
  cases other

/-- The kind of member that a line opens. -/
inductive Shape where
  | nested
  | method
  | field
  | array
  deriving DecidableEq, Repr

/-- Only fields end in a semicolon. Of the others only methods have a parenthesis in their line,
and only arrays have an equals sign at its end. -/
def Shape.ofLine? (line : String) : Option Shape :=
  match line.toList.reverse with
  | ';' :: _ => some .field
  | '\x7b' :: mark :: before =>
    some (if '(' ∈ mark :: before then .method else if mark = '=' then .array else .nested)
  | _ => none

namespace Shape

theorem ofLine?_semicolon (before : String) : ofLine? (before ++ ";") = some .field := by
  simp [ofLine?]

theorem ofLine?_blank_brace (before : String) :
    ofLine? (before ++ " \x7b") = some (if '(' ∈ before.toList then .method else .nested) := by
  simp [ofLine?]

theorem ofLine?_equals_brace (before : String) :
    ofLine? (before ++ "=\x7b") = some (if '(' ∈ before.toList then .method else .array) := by
  simp [ofLine?]

theorem ofLine?_nested {head : ClassHead} (name : IsName head.name) :
    ofLine? head.content = some .nested := by
  have no_parenthesis := name.not_mem (c := '(') (by decide)
  unfold ClassHead.content
  rw [ofLine?_blank_brace, if_neg]
  split <;> simp [no_parenthesis]

theorem ofLine?_method {method : Method} (parenthesis : '(' ∈ method.signature.toList) :
    ofLine? method.opening = some .method := by
  unfold Method.opening
  rw [ofLine?_blank_brace, if_pos parenthesis]

theorem ofLine?_field (field : Field) (finalFields : Bool) :
    ofLine? (field.content finalFields) = some .field := by
  unfold Field.content
  rw [ofLine?_semicolon]

theorem ofLine?_array {array : ConstantArray} (name : IsName array.name) :
    ofLine? array.opening = some .array := by
  have no_parenthesis := name.not_mem (c := '(') (by decide)
  have type : '(' ∉ array.kind.javaType.toList := by
    cases array.kind <;> decide
  unfold ConstantArray.opening
  rw [ofLine?_equals_brace, if_neg]
  simp [no_parenthesis, type]

end Shape

/-! ### The parts of a declaration -/

theorem ClassHead.content_inj {head other : ClassHead} (same : head.content = other.content) :
    head.qualifier = other.qualifier ∧ head.name = other.name := by
  unfold content at same
  rw [← String.toList_inj] at same
  -- Without the modifier the word after the first is not the one that the modifier is.
  cases first : head.qualifier <;> cases second : other.qualifier <;>
    simp [first, second, String.toList_inj] at same ⊢
  all_goals exact same

theorem Method.opening_inj {method other : Method} (same : method.opening = other.opening) :
    method.signature = other.signature :=
  String.append_left_inj _ |>.mp same

/-- What stands before the blank is the Java type, since no Java type has a blank in it. -/
theorem LiteralKind.javaType_append_inj {kind other : LiteralKind} {rest more : List Char}
    (close : Char) (outside : ∀ kind : LiteralKind, close ∉ kind.javaType.toList)
    (same : kind.javaType.toList ++ close :: rest = other.javaType.toList ++ close :: more) :
    kind.javaType = other.javaType ∧ rest = more := by
  obtain ⟨here, later⟩ := Delimited.append_inj (outside kind) (outside other) same
  exact ⟨String.toList_inj.mp here, later⟩

theorem Field.content_inj {field other : Field} {finalFields : Bool} (name : IsName field.name)
    (other_name : IsName other.name)
    (same : field.content finalFields = other.content finalFields) :
    field.name = other.name ∧
      (⟨field.kind, field.value⟩ : (kind : LiteralKind) × kind.Value) =
        ⟨other.kind, other.value⟩ := by
  -- The type ends at a blank, the name at the equals sign, and the literal at the semicolon.
  unfold content at same
  simp only [String.append_assoc, String.append_right_inj] at same
  rw [← String.toList_inj] at same
  simp only [String.toList_append] at same
  obtain ⟨type, later⟩ := LiteralKind.javaType_append_inj ' '
    (fun kind => by cases kind <;> decide) same
  have no_equals {name : String} (valid : IsName name) : '=' ∉ name.toList :=
    valid.not_mem (by decide)
  obtain ⟨names, literal⟩ := Delimited.append_inj (no_equals name) (no_equals other_name) later
  have ended : (Literal.text field.kind field.value).toList ++ ";".toList =
      (Literal.text other.kind other.value).toList ++ ";".toList := literal
  have texts := String.toList_inj.mp (List.append_cancel_right ended)
  exact ⟨String.toList_inj.mp names, Literal.text_inj type texts⟩

theorem Field.eq_of_parts {field other : Field} (names : field.name = other.name)
    (constants : (⟨field.kind, field.value⟩ : (kind : LiteralKind) × kind.Value) =
      ⟨other.kind, other.value⟩) (docs : field.doc = other.doc) : field = other := by
  cases field
  cases other
  cases names
  cases docs
  cases constants
  rfl

theorem ConstantArray.opening_inj {array other : ConstantArray}
    (same : array.opening = other.opening) :
    array.kind.javaType = other.kind.javaType ∧ array.name = other.name := by
  unfold opening at same
  simp only [String.append_assoc, String.append_right_inj] at same
  rw [← String.toList_inj] at same
  simp only [String.toList_append] at same
  obtain ⟨type, later⟩ := LiteralKind.javaType_append_inj '['
    (fun kind => by cases kind <;> decide) same
  have ended : array.name.toList ++ "=\x7b".toList = other.name.toList ++ "=\x7b".toList :=
    (List.cons.inj (List.cons.inj later).2).2
  exact ⟨type, String.toList_inj.mp (List.append_cancel_right ended)⟩

/-! ### The elements of an array -/

namespace ConstantArray

theorem ne_nil_of_mem_groups {α : Type} {items group : List α} (member : group ∈ groups items) :
    group ≠ [] := by
  fun_induction groups items <;> simp_all
  rcases member with rfl | later <;> simp_all

/-- The comma at the end of a row and the line end before the next stand for the comma and the
blank between two elements of one row. -/
theorem intercalate_rowTexts (groups : List (List String))
    (nonempty : ∀ group ∈ groups, group ≠ []) :
    " ".intercalate (rowTexts groups) = ", ".intercalate groups.flatten := by
  induction groups with
  | nil => rfl
  | cons group more ih =>
    cases more with
    | nil => simp [rowTexts]
    | cons next others =>
      have here := nonempty group List.mem_cons_self
      have there : (next :: others).flatten ≠ [] := by
        have next_nonempty := nonempty next (by simp)
        simp [next_nonempty]
      have rest := ih (fun other mem => nonempty other (List.mem_cons_of_mem _ mem))
      rw [List.flatten_cons, String.intercalate_append_of_ne_nil here there, ← rest, rowTexts,
        String.intercalate_cons_of_ne_nil (by simp [rowTexts_cons])]
      simp [← String.toList_inj]

theorem join_literals (array : ConstantArray) :
    String.join (array.literals.map (· ++ ", ")) =
      if array.rows = [] then "" else " ".intercalate array.rows ++ ", " := by
  have empty_iff : array.rows = [] ↔ array.literals = [] := by
    rw [rows, ← groups_eq_nil_iff array.literals]
    cases groups array.literals <;> simp [rowTexts, rowTexts_cons]
  split
  next empty => rw [empty_iff.mp empty, List.map_nil, String.join_nil]
  next nonempty =>
    rw [rows, intercalate_rowTexts _ (fun _ => ne_nil_of_mem_groups), flatten_groups,
      Text.intercalate_append_separator _ _ (fun empty => nonempty (empty_iff.mpr empty))]

/-- The rows tell the elements, and with the first element also their kind. -/
theorem elements_inj {array other : ConstantArray}
    (type : array.kind.javaType = other.kind.javaType) (same : array.rows = other.rows) :
    array.elements = [] ∧ other.elements = [] ∨
      (⟨array.kind, array.elements⟩ : (kind : LiteralKind) × List kind.Value) =
        ⟨other.kind, other.elements⟩ := by
  apply Literal.map_text_inj type
  apply Literal.join_texts_inj type
  have joined := array.join_literals
  rwa [same, ← other.join_literals] at joined

end ConstantArray

/-! ### Documentation -/

namespace Doc

theorem toList_commentLine (line : String) :
    (commentLine line).toList = ' ' :: '*' :: if line = "" then [] else ' ' :: line.toList := by
  unfold commentLine
  by_cases empty : line = "" <;> simp [empty]

theorem commentLine_inj {line other : String} (same : commentLine line = commentLine other) :
    line = other := by
  rw [← String.toList_inj, toList_commentLine, toList_commentLine] at same
  by_cases empty : line = "" <;> by_cases other_empty : other = "" <;>
    simp_all [String.toList_inj]

theorem commentLine_ne_close (line : String) : commentLine line ≠ " */" := by
  intro same
  rw [← String.toList_inj, toList_commentLine] at same
  split at same <;> simp at same

variable {margin : String} {rest more : List String}

/-- The block of a comment, before something that opens no block. -/
theorem commentLines_inj {lines others : List String}
    (fresh : rest.head? ≠ some (margin ++ "/**"))
    (other_fresh : more.head? ≠ some (margin ++ "/**"))
    (same : (commentLines lines).map (margin ++ ·) ++ rest =
      (commentLines others).map (margin ++ ·) ++ more) : lines = others ∧ rest = more := by
  unfold commentLines at same
  by_cases empty : lines = [] <;> by_cases other_empty : others = []
  · simpa [empty, other_empty] using same
  -- Only one of them has a block, so what follows the other would begin with one.
  · refine absurd ?_ fresh
    have head := congrArg List.head? same
    simpa [empty, other_empty] using head
  · refine absurd ?_ other_fresh
    have head := congrArg List.head? same.symm
    simpa [empty, other_empty] using head
  · simp only [List.isEmpty_iff, empty, other_empty, if_false, List.map_cons, List.map_append,
      List.map_map, List.map_nil, List.append_assoc, List.cons_append, List.nil_append,
      List.cons.injEq, true_and] at same
    refine Delimited.map_inj ?_ ?_ same
    · intro line other equal
      exact commentLine_inj (String.append_right_inj _ |>.mp equal)
    · intro line _ equal
      exact commentLine_ne_close line (String.append_right_inj _ |>.mp equal)

/-- The line that opens a member is no line of its documentation. -/
theorem fresh_opening {opening tag : String} (opens : Shape.ofLine? opening ≠ none)
    (closed : Shape.ofLine? tag = none) :
    ((margin ++ opening) :: rest).head? ≠ some (margin ++ tag) := by
  intro same
  obtain rfl : opening = tag := by simpa using same
  exact opens closed

theorem fresh_optional {mark tag : String} {flag : Bool} (different : mark ≠ tag)
    (fresh : rest.head? ≠ some (margin ++ tag)) :
    ((if flag then [margin ++ mark] else []) ++ rest).head? ≠ some (margin ++ tag) := by
  cases flag
  · exact fresh
  · simpa using different

/-- Documentation without annotations, and the line that it stands before. -/
theorem opened_inj {doc other : Doc} {opening other_opening : String}
    (plain : doc.annotations = []) (other_plain : other.annotations = [])
    (opens : Shape.ofLine? opening ≠ none) (other_opens : Shape.ofLine? other_opening ≠ none)
    (same : (doc.contents ++ [opening]).map (margin ++ ·) ++ rest =
      (other.contents ++ [other_opening]).map (margin ++ ·) ++ more) :
    doc = other ∧ opening = other_opening ∧ rest = more := by
  unfold contents at same
  simp only [plain, other_plain, List.map_append, List.map_nil, List.append_assoc,
    apply_ite (List.map (margin ++ ·)), List.map_cons, List.nil_append, List.cons_append] at same
  -- Each part is followed by lines that cannot be taken for its own first line.
  obtain ⟨lines, after_lines⟩ := commentLines_inj
    (fresh_optional (by decide) (fresh_optional (by decide) (fresh_opening opens (by decide))))
    (fresh_optional (by decide)
      (fresh_optional (by decide) (fresh_opening other_opens (by decide))))
    same
  obtain ⟨deprecated, after_deprecated⟩ := Delimited.optional_inj
    (fresh_optional (by decide) (fresh_opening opens (by decide)))
    (fresh_optional (by decide) (fresh_opening other_opens (by decide))) after_lines
  obtain ⟨system, after_system⟩ := Delimited.optional_inj
    (fresh_opening opens (by decide)) (fresh_opening other_opens (by decide)) after_deprecated
  obtain ⟨openings, rests⟩ := List.cons.inj after_system
  refine ⟨?_, String.append_right_inj _ |>.mp openings, rests⟩
  cases doc
  cases other
  simp_all

end Doc

end JavaSource
