import JavaSource.Member.Pieces
import JavaSource.Proofs.Lines
import JavaSource.Proofs.Nodes

/-!
# Layout of a member

A member is laid out as lines, each with a depth below the member, before anything is known of the
margin or of the indentation unit. A class that is left out is laid out as a blank mark, which is
shown without the margin.
-/
namespace JavaSource

/-- One line of a layout: the mark of a class that is left out, or a text at a depth. -/
inductive Line where
  | blank (head : ClassHead)
  | text (depth : Nat) (content : String)
  deriving DecidableEq, Repr

/-- A unit moves a line to the right and has nothing else in it. -/
theorem Indent.unit_blank (indent : Indent) :
    indent.unit ≠ "" ∧ ∀ c ∈ indent.unit.toList, c = ' ' ∨ c = '\t' := by
  cases indent with
  | tab => simp [unit]
  | spaces width =>
    by_cases four : width = 4
    · simp [unit, four]
    · by_cases eight : width = 8 <;> simp [unit, four, eight]

/-- The margin with one unit for each level of depth. -/
def indented (margin unit : String) (depth : Nat) : String :=
  margin ++ String.join (List.replicate depth unit)

theorem indented_zero (margin unit : String) : indented margin unit 0 = margin := by
  simp [indented]

theorem indented_succ (margin unit : String) (depth : Nat) :
    indented margin unit (depth + 1) = indented margin unit depth ++ unit := by
  simp [indented, List.replicate_succ', String.append_assoc]

namespace Line

/-- What stands on the line once margin and unit are known. -/
def render (margin unit : String) : Line → String
  | .blank _ => ""
  | .text depth content => indented margin unit depth ++ content

def leftOut? : Line → Option ClassHead
  | .blank head => some head
  | .text _ _ => none

/-- Lines of one depth. -/
def texts (depth : Nat) (contents : List String) : List Line := contents.map (.text depth)

theorem render_texts (margin unit : String) (depth : Nat) (contents : List String) :
    (texts depth contents).map (render margin unit) =
      contents.map (indented margin unit depth ++ ·) := by
  simp [texts, render, Function.comp_def]

theorem leftOut?_texts (depth : Nat) (contents : List String) :
    (texts depth contents).filterMap leftOut? = [] := by
  simp [texts, leftOut?]

end Line

/-! ### The lines of each kind of member -/

namespace Doc

def commentLine (line : String) : String := if line.isEmpty then " *" else " * " ++ line

def commentLines (lines : List String) : List String :=
  if lines.isEmpty then [] else "/**" :: lines.map commentLine ++ [" */"]

/-- The lines of the comment block and of the annotations. -/
def contents (doc : Doc) : List String :=
  commentLines doc.lines ++ (if doc.deprecated then ["@Deprecated"] else []) ++
    (if doc.systemApi then ["@android.annotation.SystemApi"] else []) ++
    doc.annotations.map ("@" ++ ·)

end Doc

def ClassHead.content (head : ClassHead) : String :=
  "public " ++ (if head.qualifier = .static then "static " else "") ++ "final class " ++
    head.name ++ " \x7b"

namespace Method

def opening (method : Method) : String := method.signature ++ " \x7b"

/-- A method stands at one depth; its statements have two spaces in their text. -/
def contents (method : Method) : List String :=
  method.doc.contents ++ [method.opening] ++ method.statements.map ("  " ++ ·) ++ ["\x7d"]

end Method

def Field.content (field : Field) (finalFields : Bool) : String :=
  "public static " ++ (if finalFields then "final " else "") ++ field.kind.javaType ++ " " ++
    field.name ++ "=" ++ Literal.text field.kind field.value ++ ";"

namespace ConstantArray

/-- Consecutive groups of four; only the last may have fewer, and none is empty. -/
def groups {α : Type} : List α → List (List α)
  | [] => []
  | [a] => [[a]]
  | [a, b] => [[a, b]]
  | [a, b, c] => [[a, b, c]]
  | a :: b :: c :: d :: rest => [a, b, c, d] :: groups rest

/-- The text of each group, with a comma at its end unless it is the last. -/
def rowTexts : List (List String) → List String
  | [] => []
  | [last] => [", ".intercalate last]
  | group :: next :: more => (", ".intercalate group ++ ",") :: rowTexts (next :: more)

def rows (array : ConstantArray) : List String := rowTexts (groups array.literals)

def opening (array : ConstantArray) : String :=
  "public static final " ++ array.kind.javaType ++ "[] " ++ array.name ++ "=\x7b"

/-- Rows stand two levels below the array, and the closing line one level. -/
def layout (array : ConstantArray) (depth : Nat) : List Line :=
  Line.texts depth (array.doc.contents ++ [array.opening]) ++ Line.texts (depth + 2) array.rows ++
    [.text (depth + 1) "\x7d;"]

end ConstantArray

namespace Member

mutual

/-- The lines of a member that stands at a depth. -/
def layout (finalFields : Bool) (depth : Nat) : Member → List Line
  | .nested head members =>
    if members.isEmpty && !head.createIfEmpty then [.blank head]
    else
      Line.texts depth (head.doc.contents ++ [head.content]) ++
        innerLayout finalFields (depth + 1) members ++ [.text depth "\x7d"]
  | .method m => Line.texts depth m.contents
  | .field f => Line.texts depth (f.doc.contents ++ [f.content finalFields])
  | .array a => a.layout depth
  | .custom c => [.text depth c.text]

def innerLayout (finalFields : Bool) (depth : Nat) : List Member → List Line
  | [] => []
  | first :: rest => layout finalFields depth first ++ innerLayout finalFields depth rest

end

theorem innerLayout_eq_flatMap (finalFields : Bool) (depth : Nat) (members : List Member) :
    innerLayout finalFields depth members = members.flatMap (layout finalFields depth) := by
  induction members with
  | nil => rfl
  | cons first rest ih => simp only [innerLayout, List.flatMap_cons, ih]

theorem layout_ne_nil (finalFields : Bool) (depth : Nat) (member : Member) :
    member.layout finalFields depth ≠ [] := by
  cases member with
  | nested head members =>
    unfold layout
    split <;> simp
  | method m => simp [layout, Method.contents, Line.texts]
  | field f => simp [layout, Line.texts]
  | array a => simp [layout, ConstantArray.layout]
  | custom c => simp [layout]

end Member

/-! ### The pieces of a member are its lines -/

namespace Doc

theorem join_linePieces (margin text : String) :
    String.join (linePieces margin text) = Text.terminated [margin ++ text] := by
  simp [linePieces, String.append_assoc]

theorem join_commentPieces (margin : String) (lines : List String) :
    String.join (commentPieces margin lines) =
      Text.terminated ((commentLines lines).map (margin ++ ·)) := by
  unfold commentPieces commentLines
  split
  · simp
  · have block : String.join (lines.flatMap (fun line =>
        if line.isEmpty then linePieces margin " *" else [margin, " * ", line, "\n"])) =
        Text.terminated (lines.map (fun line => margin ++ commentLine line)) := by
      apply Text.join_flatMap_eq_terminated_map
      intro line
      unfold commentLine
      split <;> simp [linePieces, String.append_assoc]
    simp only [String.join_append, join_linePieces, block]
    simp [Function.comp_def, String.append_assoc]

theorem join_pieces (doc : Doc) (margin : String) :
    String.join (doc.pieces margin) = Text.terminated (doc.contents.map (margin ++ ·)) := by
  have annotations : String.join (doc.annotations.flatMap (fun text => [margin, "@", text, "\n"])) =
      Text.terminated (doc.annotations.map (fun text => margin ++ ("@" ++ text))) := by
    apply Text.join_flatMap_eq_terminated_map
    intro text
    simp [String.append_assoc]
  unfold pieces contents
  simp only [String.join_append, List.map_append, Text.terminated_append, join_commentPieces,
    annotations, List.map_map, Function.comp_def]
  cases doc.deprecated <;> cases doc.systemApi <;> simp [join_linePieces]

end Doc

theorem ClassHead.join_pieces (head : ClassHead) (margin : String) :
    String.join (head.pieces margin) =
      Text.terminated ((head.doc.contents ++ [head.content]).map (margin ++ ·)) := by
  unfold pieces content
  rw [← String.toList_inj]
  split <;> simp [Doc.join_pieces]

theorem Method.join_pieces (method : Method) (margin : String) :
    String.join (method.pieces margin) ++ "\n" =
      Text.terminated (method.contents.map (margin ++ ·)) := by
  have statements : String.join
      (method.statements.flatMap (fun statement => [margin, "  ", statement, "\n"])) =
      Text.terminated (method.statements.map (fun statement => margin ++ ("  " ++ statement))) := by
    apply Text.join_flatMap_eq_terminated_map
    intro statement
    simp [String.append_assoc]
  unfold pieces contents opening
  simp only [String.join_append, List.map_append, Text.terminated_append, Doc.join_pieces,
    statements, List.map_map, Function.comp_def]
  simp [String.append_assoc]

theorem Field.join_pieces (field : Field) (context : Context) (margin : String) :
    String.join (field.pieces context margin) ++ "\n" =
      Text.terminated ((field.doc.contents ++ [field.content context.finalFields]).map
        (margin ++ ·)) := by
  unfold pieces content
  rw [← String.toList_inj]
  split <;> simp [Doc.join_pieces]

namespace ConstantArray

theorem rowTexts_cons (group : List String) (more : List (List String)) :
    rowTexts (group :: more) =
      (", ".intercalate group ++ if more = [] then "" else ",") :: rowTexts more := by
  cases more <;> simp [rowTexts]

theorem groups_eq_nil_iff {α : Type} (items : List α) : groups items = [] ↔ items = [] := by
  unfold groups
  split <;> simp

/-- At the start of a row stand the comma that ends the row before, the line end and the margin of
rows. So the loop writes the rows, with the line end of each written by the next. -/
theorem join_elementPieces (margin unit : String) (literals : List String) (index : Nat)
    (aligned : index % 4 = 0) :
    String.join (elementPieces margin unit index literals) ++ "\n" =
      (if 0 < index ∧ literals ≠ [] then "," else "") ++ "\n" ++
        Text.terminated ((rowTexts (groups literals)).map (margin ++ unit ++ unit ++ ·)) := by
  rw [← String.toList_inj]
  -- One case for each length of the last row, and one for a full row before others.
  fun_induction groups literals generalizing index with
  | case1 => simp [elementPieces, rowTexts]
  | case2 a =>
    simp [elementPieces, rowTexts, separator, aligned]
    split <;> simp
  | case3 a b =>
    have second : (index + 1) % 4 ≠ 0 := by omega
    simp [elementPieces, rowTexts, separator, aligned, second]
    split <;> simp
  | case4 a b c =>
    have second : (index + 1) % 4 ≠ 0 := by omega
    have third : (index + 1 + 1) % 4 ≠ 0 := by omega
    simp [elementPieces, rowTexts, separator, aligned, second, third]
    split <;> simp
  | case5 a b c d rest ih =>
    have second : (index + 1) % 4 ≠ 0 := by omega
    have third : (index + 1 + 1) % 4 ≠ 0 := by omega
    have fourth : (index + 1 + 1 + 1) % 4 ≠ 0 := by omega
    have next := ih (index + 1 + 1 + 1 + 1) (by omega)
    simp [String.toList_join] at next
    simp [elementPieces, rowTexts_cons, separator, aligned, second, third, fourth,
      groups_eq_nil_iff, String.toList_join, next]
    split <;> simp

theorem join_pieces (array : ConstantArray) (context : Context) (margin : String) :
    String.join (array.pieces context margin) ++ "\n" =
      Text.terminated ((array.doc.contents ++ [array.opening]).map (margin ++ ·) ++
        array.rows.map (margin ++ context.indent.unit ++ context.indent.unit ++ ·) ++
        [margin ++ context.indent.unit ++ "\x7d;"]) := by
  have elements := join_elementPieces margin context.indent.unit array.literals 0 rfl
  rw [if_neg (by simp), String.empty_append] at elements
  -- The line end after the last element is the one that the closing line begins with.
  have shift (rest : List Char) :
      (elementPieces margin context.indent.unit 0 array.literals).flatMap String.toList ++
          '\n' :: rest =
        '\n' :: ((Text.terminated ((rowTexts (groups array.literals)).map
          (margin ++ context.indent.unit ++ context.indent.unit ++ ·))).toList ++ rest) := by
    have same := congrArg (fun text => text.toList ++ rest) elements
    simpa using same
  unfold pieces rows opening
  rw [← String.toList_inj]
  simp [Doc.join_pieces, shift]

end ConstantArray

namespace Member

variable (margin : String) (indent : Indent) (finalFields : Bool)

/-- A member and the line end after it are its lines, each with a line end. -/
theorem join_pieces_layout (member : Member) (depth : Nat) :
    String.join (member.pieces ⟨indent, finalFields⟩ (indented margin indent.unit depth)) ++ "\n" =
      Text.terminated ((member.layout finalFields depth).map (Line.render margin indent.unit)) := by
  induction member using Member.induction generalizing depth with
  | nested head members ih =>
    unfold pieces layout
    split
    · simp [Line.render]
    · have inner : String.join (innerPieces ⟨indent, finalFields⟩
          (indented margin indent.unit (depth + 1)) members) =
          Text.terminated (((innerLayout finalFields (depth + 1) members)).map
            (Line.render margin indent.unit)) := by
        rw [innerPieces_eq_flatMap, innerLayout_eq_flatMap, List.map_flatMap]
        apply Text.join_flatMap_eq_terminated
        intro member mem
        simpa using ih member mem (depth + 1)
      simp only [Context.inner, ← indented_succ, List.map_append, Line.render_texts,
        Text.terminated_append, String.join_append, ClassHead.join_pieces, inner]
      simp [Line.render, String.append_assoc]
  | method m => rw [pieces, layout, Line.render_texts, m.join_pieces]
  | field f => rw [pieces, layout, Line.render_texts, f.join_pieces]
  | array a =>
    rw [pieces, layout, a.join_pieces, ConstantArray.layout]
    simp only [List.map_append, Line.render_texts, indented_succ, Line.render,
      List.map_cons, List.map_nil]
  | custom c => simp [pieces, layout, Line.render, String.append_assoc]

end Member

end JavaSource
