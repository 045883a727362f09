import JavaSource.Proofs.LayoutRefinement

/-!
# The finality of fields

One list of lines serves both values of the flag: only the declarations of fields are left open in
it, and the flag fills each of them with or without `final`. Two renderings that differ in the flag
are then compared line by line. The list is built by the recursion of the layout, and that it holds
the declaration of each field of the tree once, in order, says that no class around a field is left
out.
-/
namespace JavaSource

/-- What a field declares after `public static` and `final`. -/
def Field.assignment (field : Field) : String :=
  field.kind.javaType ++ " " ++ field.name ++ "=" ++ Literal.text field.kind field.value ++ ";"

theorem Field.content_eq (field : Field) (finalFields : Bool) :
    field.content finalFields =
      "public static " ++ (if finalFields then "final " else "") ++ field.assignment := by
  unfold content assignment
  rw [← String.toList_inj]
  simp

/-- One line of a member before the flag is known: a line of the layout, or the declaration of a
field at a depth. -/
inductive OpenLine where
  | closed (line : Line)
  | declaration (depth : Nat) (field : Field)

namespace OpenLine

def fill (finalFields : Bool) : OpenLine → Line
  | .closed line => line
  | .declaration depth field => .text depth (field.content finalFields)

def field? : OpenLine → Option Field
  | .closed _ => none
  | .declaration _ field => some field

/-- What stands on the line once margin, unit and flag are known. -/
def render (margin unit : String) (finalFields : Bool) (line : OpenLine) : String :=
  (line.fill finalFields).render margin unit

theorem map_fill_closed (finalFields : Bool) (lines : List Line) :
    (lines.map closed).map (fill finalFields) = lines := by
  simp [Function.comp_def, fill]

theorem filterMap_field?_closed (lines : List Line) : (lines.map closed).filterMap field? = [] := by
  simp [field?]

theorem render_declaration (margin unit : String) (finalFields : Bool) (depth : Nat)
    (field : Field) :
    render margin unit finalFields (.declaration depth field) =
      indented margin unit depth ++ "public static " ++
        (if finalFields then "final " else "") ++ field.assignment := by
  simp only [render, fill, Line.render, Field.content_eq, String.append_assoc]

/-- The flag adds the size of `final` and a space to the line of a field, and nothing to any other
line, in every measure of texts that adds up. -/
theorem size_render_true {size : String → Nat}
    (additive : ∀ first second, size (first ++ second) = size first + size second)
    (margin unit : String) (line : OpenLine) :
    size (line.render margin unit true) =
      size (line.render margin unit false) + size "final " * line.field?.toList.length := by
  -- Without the flag the empty text stands where `final` would, and adds nothing.
  have empty : size "" = 0 := by
    have twice := additive "" ""
    rw [String.append_empty] at twice
    omega
  cases line with
  | closed line => simp [render, fill, field?]
  | declaration depth field =>
    simp only [render_declaration, additive, if_true, Bool.false_eq_true, if_false, empty, field?,
      Option.toList_some, List.length_singleton]
    omega

/-- Joined lines differ in size by what their fields add. -/
theorem size_intercalate_true {size : String → Nat}
    (additive : ∀ first second, size (first ++ second) = size first + size second)
    (margin unit : String) (lines : List OpenLine) :
    size ("\n".intercalate (lines.map (render margin unit true))) =
      size ("\n".intercalate (lines.map (render margin unit false))) +
        size "final " * (lines.filterMap field?).length := by
  induction lines with
  | nil => simp
  | cons line rest ih =>
    have here := size_render_true additive margin unit line
    have split : ((line :: rest).filterMap field?).length =
        line.field?.toList.length + (rest.filterMap field?).length := by
      rw [List.filterMap_cons]
      cases line.field? <;> simp [Nat.add_comm]
    rw [split, Nat.mul_add]
    cases rest with
    | nil => simpa using here
    | cons next more =>
      -- The line feed after the first line has the same size on both sides.
      simp only [List.map_cons, String.intercalate_cons_cons, additive] at ih ⊢
      omega

end OpenLine

namespace Member

def field? : Member → Option Field
  | .field f => some f
  | _ => none

/-- The fields of the tree, at every depth and in order. -/
def fields (member : Member) : List Field := member.nodes.filterMap field?

mutual

/-- The lines of a member that stands at a depth, with the declarations of its fields left open. -/
def openLayout (depth : Nat) : Member → List OpenLine
  | .nested head members =>
    if members.isEmpty && !head.createIfEmpty then [.closed (.blank head)]
    else
      (Line.texts depth (head.doc.contents ++ [head.content])).map .closed ++
        innerOpenLayout (depth + 1) members ++ [.closed (.text depth "\x7d")]
  | .method m => (Line.texts depth m.contents).map .closed
  | .field f => (Line.texts depth f.doc.contents).map .closed ++ [.declaration depth f]
  | .array a => (a.layout depth).map .closed
  | .custom c => [.closed (.text depth c.text)]

def innerOpenLayout (depth : Nat) : List Member → List OpenLine
  | [] => []
  | first :: rest => openLayout depth first ++ innerOpenLayout depth rest

end

theorem innerOpenLayout_eq_flatMap (depth : Nat) (members : List Member) :
    innerOpenLayout depth members = members.flatMap (openLayout depth) := by
  induction members with
  | nil => rfl
  | cons first rest ih => simp only [innerOpenLayout, List.flatMap_cons, ih]

/-- For either value of the flag the layout is the open one, filled. -/
theorem map_fill_openLayout (finalFields : Bool) (member : Member) (depth : Nat) :
    (member.openLayout depth).map (OpenLine.fill finalFields) =
      member.layout finalFields depth := by
  induction member using Member.induction generalizing depth with
  | nested head members ih =>
    have inner : (members.flatMap (openLayout (depth + 1))).map (OpenLine.fill finalFields) =
        members.flatMap (layout finalFields (depth + 1)) := by
      rw [List.map_flatMap]
      exact List.flatMap_congr (fun member mem => ih member mem (depth + 1))
    -- Both recursions leave the same classes out.
    rw [openLayout, layout]
    split
    next empty => rfl
    next shown =>
      rw [innerOpenLayout_eq_flatMap, innerLayout_eq_flatMap, List.map_append, List.map_append,
        inner, OpenLine.map_fill_closed]
      rfl
  | method m => rw [openLayout, layout, OpenLine.map_fill_closed]
  | field f =>
    rw [openLayout, layout, List.map_append, OpenLine.map_fill_closed]
    simp [OpenLine.fill, Line.texts]
  | array a => rw [openLayout, layout, OpenLine.map_fill_closed]
  | custom c => rfl

/-- The open lines are those of the fields of the tree: no class around a field is left out. -/
theorem filterMap_field?_openLayout (member : Member) (depth : Nat) :
    (member.openLayout depth).filterMap OpenLine.field? = member.fields := by
  unfold fields
  induction member using Member.induction generalizing depth with
  | nested head members ih =>
    have inner : (members.flatMap (openLayout (depth + 1))).filterMap OpenLine.field? =
        (members.flatMap nodes).filterMap field? := by
      rw [List.filterMap_flatMap, List.filterMap_flatMap]
      exact List.flatMap_congr (fun member mem => ih member mem (depth + 1))
    have no_field : field? (.nested head members) = none := rfl
    rw [nodes_nested, List.filterMap_cons_none no_field, openLayout]
    -- The blank mark stands for a class without members, so no field is lost with it.
    split
    next empty =>
      obtain ⟨rfl, -⟩ : members = [] ∧ _ := by simpa using empty
      rfl
    next shown =>
      rw [innerOpenLayout_eq_flatMap, List.filterMap_append, List.filterMap_append, inner,
        OpenLine.filterMap_field?_closed]
      simp [OpenLine.field?]
  | method m => rw [openLayout, OpenLine.filterMap_field?_closed]; rfl
  | field f =>
    rw [openLayout, List.filterMap_append, OpenLine.filterMap_field?_closed]
    rfl
  | array a => rw [openLayout, OpenLine.filterMap_field?_closed]; rfl
  | custom c => rfl

theorem render_eq_intercalate_openLayout (member : Member) (margin : String) (indent : Indent)
    (finalFields : Bool) :
    member.render margin ⟨indent, finalFields⟩ =
      "\n".intercalate ((member.openLayout 0).map
        (OpenLine.render margin indent.unit finalFields)) := by
  rw [render_eq_intercalate_layout, ← map_fill_openLayout, List.map_map]
  rfl

/-- The two texts of a member that differ in the flag are made of the same list of lines. The flag
shows on the lines that declare the fields of the tree, each field of it once and in order: there
it adds `final` and a space after `public static`. All other lines are the same, so that the texts
differ in length, in bytes as in characters, by six for each field. -/
theorem render_finalFields (member : Member) (margin : String) (indent : Indent) :
    (∀ finalFields, member.render margin ⟨indent, finalFields⟩ =
      "\n".intercalate ((member.openLayout 0).map
        (OpenLine.render margin indent.unit finalFields))) ∧
    (member.openLayout 0).filterMap OpenLine.field? = member.fields ∧
    (∀ depth field,
      OpenLine.render margin indent.unit false (.declaration depth field) =
        indented margin indent.unit depth ++ "public static " ++ field.assignment ∧
      OpenLine.render margin indent.unit true (.declaration depth field) =
        indented margin indent.unit depth ++ "public static " ++ "final " ++ field.assignment) ∧
    (∀ line, OpenLine.render margin indent.unit true (.closed line) =
      OpenLine.render margin indent.unit false (.closed line)) ∧
    (member.render margin ⟨indent, true⟩).utf8ByteSize =
      (member.render margin ⟨indent, false⟩).utf8ByteSize + 6 * member.fields.length ∧
    (member.render margin ⟨indent, true⟩).length =
      (member.render margin ⟨indent, false⟩).length + 6 * member.fields.length := by
  refine ⟨member.render_eq_intercalate_openLayout margin indent,
    member.filterMap_field?_openLayout 0, fun depth field => ?_, fun line => rfl, ?_, ?_⟩
  · constructor
    · simp [OpenLine.render_declaration]
    · simp [OpenLine.render_declaration]
  · rw [render_eq_intercalate_openLayout, render_eq_intercalate_openLayout,
      OpenLine.size_intercalate_true @String.utf8ByteSize_append, filterMap_field?_openLayout]
    rfl
  · rw [render_eq_intercalate_openLayout, render_eq_intercalate_openLayout,
      OpenLine.size_intercalate_true @String.length_append, filterMap_field?_openLayout]
    rfl

end Member

end JavaSource
