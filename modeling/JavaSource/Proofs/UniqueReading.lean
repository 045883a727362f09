import JavaSource.File
import JavaSource.Proofs.Declarations
import JavaSource.Proofs.Erasure
import JavaSource.Proofs.LayoutRefinement

/-!
# The text tells the tree

Two files with the same options have the same text only if their packages are the same and their
trees are, apart from what the text does not show of a tree.

## Proof strategy

A text is split into its lines first. On the lines, by induction on the tree: the line that opens a
member tells its kind, and every list inside a member ends at a line that no item of the list
begins with.
-/
namespace JavaSource

/-! ### Trees that can be read back -/

namespace Doc

/-- The documentation that some comments leave. -/
def FromComments (doc : Doc) : Prop := ∃ texts : List String, doc = texts.foldl comment {}

theorem FromComments.annotations {doc : Doc} (comments : doc.FromComments) :
    doc.annotations = [] := by
  obtain ⟨texts, rfl⟩ := comments
  rw [foldl_comment_eq_ofSteps, List.eq_nil_iff_forall_not_mem]
  intro text member
  simpa using (mem_annotations_ofSteps _ text).mp member

theorem FromComments.singleLine {doc : Doc} (comments : doc.FromComments) :
    doc.SingleLine := by
  obtain ⟨texts, rfl⟩ := comments
  exact ⟨texts.map .comment, foldl_comment_eq_ofSteps texts, by simp⟩

end Doc

namespace Member

/-- A member with a valid name or signature, statements of one line each, and documentation that
comes from comments. -/
def Readable : Member → Prop
  | .nested head _ => IsName head.name ∧ head.doc.FromComments
  | .method m => OneLine m.signature ∧ '(' ∈ m.signature.toList ∧
    (∀ statement ∈ m.statements, OneLine statement) ∧ m.doc.FromComments
  | .field f => IsName f.name ∧ f.doc.FromComments
  | .array a => IsName a.name ∧ a.doc.FromComments
  | .custom _ => False

theorem Readable.singleLine {member : Member} (readable : member.Readable) :
    member.SingleLine := by
  have name {name : String} (valid : IsName name) : OneLine name := valid.not_mem (by decide)
  cases member with
  | nested head members => exact ⟨name readable.1, readable.2.singleLine⟩
  | method m => exact ⟨readable.1, readable.2.2.1, readable.2.2.2.singleLine⟩
  | field f => exact ⟨name readable.1, readable.2.singleLine⟩
  | array a => exact ⟨name readable.1, readable.2.singleLine⟩
  | custom c => exact readable.elim

end Member

/-! ### A member as the line that opens it and the lines after it -/

theorem indented_succ_append_ne (margin text : String) (indent : Indent) (depth : Nat)
    {close : String} (closes : close.toList.head? = some '\x7d') :
    indented margin indent.unit (depth + 1) ++ text ≠
      indented margin indent.unit depth ++ close := by
  rw [indented_succ, String.append_assoc, Ne, String.append_right_inj, ← String.toList_inj]
  intro same
  obtain ⟨nonempty, blanks⟩ := indent.unit_blank
  cases unit : indent.unit.toList with
  | nil => exact nonempty (String.toList_eq_nil_iff.mp unit)
  | cons first rest =>
    rw [← same, String.toList_append, unit] at closes
    obtain rfl : first = '\x7d' := Option.some.inj closes
    have brace := blanks '\x7d' (by simp [unit])
    exact absurd brace (by decide)

namespace Member

/-- The line that opens a member. -/
def opening (finalFields : Bool) : Member → String
  | .nested head _ => head.content
  | .method m => m.opening
  | .field f => f.content finalFields
  | .array a => a.opening
  | .custom c => c.text

/-- The lines after the one that opens a member. -/
def body (finalFields : Bool) (depth : Nat) : Member → List Line
  | .nested _ members =>
    members.flatMap (layout finalFields (depth + 1)) ++ [.text depth "\x7d"]
  | .method m => Line.texts depth (m.statements.map ("  " ++ ·) ++ ["\x7d"])
  | .field _ => []
  | .array a => Line.texts (depth + 2) a.rows ++ [.text (depth + 1) "\x7d;"]
  | .custom _ => []

def shape? : Member → Option Shape
  | .nested _ _ => some .nested
  | .method _ => some .method
  | .field _ => some .field
  | .array _ => some .array
  | .custom _ => none

theorem Readable.ofLine?_opening {member : Member} (readable : member.Readable)
    (finalFields : Bool) : Shape.ofLine? (member.opening finalFields) = member.shape? := by
  cases member with
  | nested head members => exact Shape.ofLine?_nested readable.1
  | method m => exact Shape.ofLine?_method readable.2.1
  | field f => exact Shape.ofLine?_field f finalFields
  | array a => exact Shape.ofLine?_array readable.1
  | custom c => exact readable.elim

theorem Readable.opens {member : Member} (readable : member.Readable) (finalFields : Bool) :
    Shape.ofLine? (member.opening finalFields) ≠ none := by
  rw [readable.ofLine?_opening]
  cases member with
  | custom c => exact readable.elim
  | _ => exact Option.some_ne_none _

theorem Readable.doc {member : Member} (readable : member.Readable) :
    ∃ doc, member.doc? = some doc ∧ doc.annotations = [] := by
  cases member with
  | nested head members => exact ⟨_, rfl, readable.2.annotations⟩
  | method m => exact ⟨_, rfl, readable.2.2.2.annotations⟩
  | field f => exact ⟨_, rfl, readable.2.annotations⟩
  | array a => exact ⟨_, rfl, readable.2.annotations⟩
  | custom c => exact readable.elim

theorem layout_eq_opened (finalFields : Bool) (depth : Nat) {member : Member} {doc : Doc}
    (documented : member.doc? = some doc) (shown : leftOut? member = none) :
    member.layout finalFields depth =
      Line.texts depth (doc.contents ++ [member.opening finalFields]) ++
        member.body finalFields depth := by
  cases member with
  | nested head members =>
    obtain rfl := Option.some.inj documented
    rw [layout_nested finalFields depth head members shown, opening, body, List.append_assoc]
  | method m =>
    obtain rfl := Option.some.inj documented
    simp [layout, opening, body, Method.contents, Line.texts]
  | field f =>
    obtain rfl := Option.some.inj documented
    simp [layout, opening, body]
  | array a =>
    obtain rfl := Option.some.inj documented
    simp [layout, opening, body, ConstantArray.layout]
  | custom c => cases documented

end Member

theorem Doc.contents_ne_empty {doc : Doc} {content : String} (member : content ∈ doc.contents) :
    content ≠ "" := by
  rintro rfl
  unfold contents commentLines at member
  simp only [List.mem_append, List.mem_map] at member
  rcases member with ((block | deprecated) | system) | ⟨text, -, annotation⟩
  · split at block
    · cases block
    · simp only [List.mem_append, List.mem_cons, List.mem_map, List.not_mem_nil, or_false] at block
      rcases block with (opening | ⟨line, -, same⟩) | closing
      · exact absurd opening (by decide)
      · rw [← String.toList_inj, toList_commentLine] at same
        cases same
      · exact absurd closing (by decide)
  · split at deprecated <;> simp at deprecated
  · split at system <;> simp at system
  · simp [← String.toList_inj] at annotation

/-! ### Lines that stand in a text -/

namespace Member

variable (indent : Indent) (finalFields : Bool)

/-- The lines of a member as they stand in a text that has no margin. -/
def lines (depth : Nat) (member : Member) : List String :=
  (member.layout finalFields depth).map (Line.render "" indent.unit)

theorem lines_leftOut (depth : Nat) {member : Member} {head : ClassHead}
    (left_out : leftOut? member = some head) : member.lines indent finalFields depth = [""] := by
  cases member with
  | nested head members =>
    have empty : (members.isEmpty && !head.createIfEmpty) = true :=
      (Option.ite_none_right_eq_some.mp left_out).1
    rw [lines, layout, if_pos empty]
    rfl
  | _ => cases left_out

theorem lines_opened (depth : Nat) {member : Member} {doc : Doc}
    (documented : member.doc? = some doc) (shown : leftOut? member = none) :
    member.lines indent finalFields depth =
      (doc.contents ++ [member.opening finalFields]).map (indented "" indent.unit depth ++ ·) ++
        (member.body finalFields depth).map (Line.render "" indent.unit) := by
  rw [lines, layout_eq_opened finalFields depth documented shown, List.map_append,
    Line.render_texts]

/-- The first line of a member is blank or has a text below the depth of the member. -/
theorem Readable.lines_begin {member : Member} (readable : member.Readable) (depth : Nat) :
    ∃ line rest, member.lines indent finalFields depth = line :: rest ∧
      (line = "" ∧ leftOut? member ≠ none ∨
        (∃ content, content ≠ "" ∧ line = indented "" indent.unit depth ++ content) ∧
          leftOut? member = none) := by
  cases out : leftOut? member with
  | some head => exact ⟨_, _, lines_leftOut indent finalFields depth out, .inl ⟨rfl, by simp⟩⟩
  | none =>
    obtain ⟨doc, documented, -⟩ := readable.doc
    have opens := readable.opens finalFields
    rw [lines_opened indent finalFields depth documented out]
    cases contents : doc.contents with
    | nil =>
      refine ⟨_, _, rfl, .inr ⟨⟨_, ?_, rfl⟩, rfl⟩⟩
      intro empty
      rw [empty] at opens
      exact opens rfl
    | cons content rest =>
      refine ⟨_, _, rfl, .inr ⟨⟨content, ?_, rfl⟩, rfl⟩⟩
      exact Doc.contents_ne_empty (contents ▸ List.mem_cons_self)

/-- A class that is left out has a blank line, and no other member begins with one. -/
theorem leftOut?_of_lines_eq {first second : Member} (readable : first.Readable)
    (other_readable : second.Readable) (depth : Nat) {rest more : List String}
    (same : first.lines indent finalFields depth ++ rest =
      second.lines indent finalFields depth ++ more) :
    leftOut? first = none ↔ leftOut? second = none := by
  obtain ⟨line, lines, begins, kind⟩ := readable.lines_begin indent finalFields depth
  obtain ⟨other, others, other_begins, other_kind⟩ :=
    other_readable.lines_begin indent finalFields depth
  rw [begins, other_begins] at same
  obtain rfl : line = other := (List.cons.inj same).1
  have text_ne_blank {content : String} (nonempty : content ≠ "") :
      indented "" indent.unit depth ++ content ≠ "" :=
    fun blank => nonempty (String.append_eq_empty_iff.mp blank).2
  -- If only one of them is left out, its blank line would be the text of the other.
  rcases kind with ⟨blank, out⟩ | ⟨⟨content, nonempty, text⟩, shown⟩ <;>
    rcases other_kind with
      ⟨other_blank, other_out⟩ | ⟨⟨other, other_nonempty, other_text⟩, other_shown⟩
  · exact ⟨fun shown => absurd shown out, fun shown => absurd shown other_out⟩
  · exact absurd (other_text.symm.trans blank) (text_ne_blank other_nonempty)
  · exact absurd (text.symm.trans other_blank) (text_ne_blank nonempty)
  · exact ⟨fun _ => other_shown, fun _ => shown⟩

/-- A member that is not left out is of the same kind as any other that begins the same text, and
both open with the same line and have the same documentation. -/
theorem opened_of_lines_eq {first second : Member} (readable : first.Readable)
    (other_readable : second.Readable) (depth : Nat) (shown : leftOut? first = none)
    {rest more : List String}
    (same : first.lines indent finalFields depth ++ rest =
      second.lines indent finalFields depth ++ more) :
    leftOut? second = none ∧ first.doc? = second.doc? ∧ first.shape? = second.shape? ∧
      first.opening finalFields = second.opening finalFields ∧
      (first.body finalFields depth).map (Line.render "" indent.unit) ++ rest =
        (second.body finalFields depth).map (Line.render "" indent.unit) ++ more := by
  have other_shown :=
    (leftOut?_of_lines_eq indent finalFields readable other_readable depth same).mp shown
  obtain ⟨doc, documented, plain⟩ := readable.doc
  obtain ⟨other, other_documented, other_plain⟩ := other_readable.doc
  rw [lines_opened indent finalFields depth documented shown, List.append_assoc,
    lines_opened indent finalFields depth other_documented other_shown, List.append_assoc] at same
  obtain ⟨rfl, opening, bodies⟩ := Doc.opened_inj plain other_plain (readable.opens finalFields)
    (other_readable.opens finalFields) same
  refine ⟨other_shown, documented.trans other_documented.symm, ?_, opening, bodies⟩
  rw [← readable.ofLine?_opening finalFields, opening, other_readable.ofLine?_opening finalFields]

/-- The members of a class, up to its closing line, when each of them can be read back. -/
theorem members_inj {members others : List Member} (depth : Nat)
    (inner : ∀ first ∈ members, ∀ second ∈ others, ∀ rest more,
      first.lines indent finalFields (depth + 1) ++ rest =
        second.lines indent finalFields (depth + 1) ++ more →
      first.erase = second.erase ∧ rest = more)
    (readable : ∀ member, member ∈ members ∨ member ∈ others → member.Readable)
    {rest more : List String}
    (same : members.flatMap (lines indent finalFields (depth + 1)) ++
        (indented "" indent.unit depth ++ "\x7d") :: rest =
      others.flatMap (lines indent finalFields (depth + 1)) ++
        (indented "" indent.unit depth ++ "\x7d") :: more) :
    members.map erase = others.map erase ∧ rest = more := by
  refine Delimited.flatMap_inj inner ?_ same
  intro member mem
  obtain ⟨line, lines, begins, kind⟩ :=
    (readable member mem).lines_begin indent finalFields (depth + 1)
  refine ⟨line, lines, begins, ?_⟩
  rcases kind with ⟨rfl, -⟩ | ⟨⟨content, -, rfl⟩, -⟩
  · intro blank
    have closing := congrArg String.toList blank
    simp at closing
  · exact indented_succ_append_ne "" content indent depth rfl

/-- The statements of a method, up to its closing line. -/
theorem statements_inj {margin : String} {statements others rest more : List String}
    (same : (statements.map ("  " ++ ·)).map (margin ++ ·) ++ (margin ++ "\x7d") :: rest =
      (others.map ("  " ++ ·)).map (margin ++ ·) ++ (margin ++ "\x7d") :: more) :
    statements = others ∧ rest = more := by
  rw [List.map_map, List.map_map] at same
  refine Delimited.map_inj ?_ ?_ same
  · intro statement other equal
    simpa using equal
  · intro statement _ closing
    have begins := congrArg String.toList (String.append_right_inj _ |>.mp closing)
    simp at begins

/-- The rows of an array, up to its closing line. -/
theorem rows_inj {margin : String} {indent : Indent} {depth : Nat}
    {rows others rest more : List String}
    (same : rows.map (indented margin indent.unit (depth + 2) ++ ·) ++
        (indented margin indent.unit (depth + 1) ++ "\x7d;") :: rest =
      others.map (indented margin indent.unit (depth + 2) ++ ·) ++
        (indented margin indent.unit (depth + 1) ++ "\x7d;") :: more) :
    rows = others ∧ rest = more := by
  refine Delimited.map_inj ?_ ?_ same
  · intro row other equal
    simpa using equal
  · intro row _
    exact indented_succ_append_ne margin row indent (depth + 1) rfl

/-- Two classes that are left out are the same for the reader. -/
theorem leftOut_inj {first second : Member} (readable : first.Readable)
    (other_readable : second.Readable) (depth : Nat) {head : ClassHead}
    (left_out : leftOut? first = some head) {rest more : List String}
    (same : first.lines indent finalFields depth ++ rest =
      second.lines indent finalFields depth ++ more) :
    first.erase = second.erase ∧ rest = more := by
  have both := leftOut?_of_lines_eq indent finalFields readable other_readable depth same
  obtain ⟨other, other_left_out⟩ := Option.ne_none_iff_exists'.mp (mt both.mpr (by simp [left_out]))
  rw [lines_leftOut indent finalFields depth left_out,
    lines_leftOut indent finalFields depth other_left_out] at same
  exact ⟨by rw [erase_of_leftOut left_out, erase_of_leftOut other_left_out],
    (List.cons.inj same).2⟩

section Kinds

variable {second : Member} {depth : Nat} {rest more : List String}

theorem nested_inj {head : ClassHead} {members : List Member}
    (inner : ∀ first ∈ members, ∀ {second : Member}, (∀ node ∈ second.nodes, node.Readable) →
      ∀ {rest more : List String}, first.lines indent finalFields (depth + 1) ++ rest =
        second.lines indent finalFields (depth + 1) ++ more →
      first.erase = second.erase ∧ rest = more)
    (readable : ∀ node ∈ (nested head members).nodes, node.Readable)
    (other_readable : ∀ node ∈ second.nodes, node.Readable)
    (same : (nested head members).lines indent finalFields depth ++ rest =
      second.lines indent finalFields depth ++ more) :
    (nested head members).erase = second.erase ∧ rest = more := by
  have here := readable _ (mem_nodes_self _)
  have there := other_readable _ (mem_nodes_self _)
  cases out : leftOut? (.nested head members) with
  | some left_out => exact leftOut_inj indent finalFields here there depth out same
  | none =>
    obtain ⟨other_out, docs, shapes, openings, bodies⟩ :=
      opened_of_lines_eq indent finalFields here there depth out same
    cases second with
    | nested other others =>
      obtain ⟨qualifiers, names⟩ := ClassHead.content_inj openings
      have all_readable : ∀ member, member ∈ members ∨ member ∈ others → member.Readable := by
        rintro member (mem | mem)
        · exact forall_nodes_nested readable member mem _ (mem_nodes_self _)
        · exact forall_nodes_nested other_readable member mem _ (mem_nodes_self _)
      simp only [body, List.map_append, List.map_flatMap, List.append_assoc] at bodies
      obtain ⟨erased, rests⟩ := members_inj indent finalFields depth
        (fun first mem second other_mem _ _ =>
          inner first mem (forall_nodes_nested other_readable second other_mem))
        all_readable bodies
      -- Whether a shown class has members is all that its flag still tells.
      have empty : members.isEmpty = others.isEmpty := by
        simpa using congrArg List.isEmpty erased
      refine ⟨?_, rests⟩
      rw [erase_of_shown out, erase_of_shown other_out, erased, qualifiers, names, empty,
        Option.some.inj docs]
    | _ => cases shapes

theorem method_inj {content : Method} (readable : (method content).Readable)
    (other_readable : second.Readable)
    (same : (method content).lines indent finalFields depth ++ rest =
      second.lines indent finalFields depth ++ more) :
    (method content).erase = second.erase ∧ rest = more := by
  obtain ⟨-, docs, shapes, openings, bodies⟩ :=
    opened_of_lines_eq indent finalFields readable other_readable depth rfl same
  cases second with
  | method other =>
    have signatures := Method.opening_inj openings
    simp only [body, Line.render_texts, List.map_append, List.append_assoc] at bodies
    obtain ⟨statements, rests⟩ := statements_inj bodies
    refine ⟨?_, rests⟩
    cases content
    cases other
    simp_all [doc?]
  | _ => cases shapes

theorem field_inj {content : Field} (readable : (field content).Readable)
    (other_readable : second.Readable)
    (same : (field content).lines indent finalFields depth ++ rest =
      second.lines indent finalFields depth ++ more) :
    (field content).erase = second.erase ∧ rest = more := by
  obtain ⟨-, docs, shapes, openings, bodies⟩ :=
    opened_of_lines_eq indent finalFields readable other_readable depth rfl same
  cases second with
  | field other =>
    obtain ⟨names, constants⟩ := Field.content_inj readable.1 other_readable.1 openings
    refine ⟨?_, bodies⟩
    rw [Field.eq_of_parts names constants (Option.some.inj docs)]
  | _ => cases shapes

theorem array_inj {content : ConstantArray} (readable : (array content).Readable)
    (other_readable : second.Readable)
    (same : (array content).lines indent finalFields depth ++ rest =
      second.lines indent finalFields depth ++ more) :
    (array content).erase = second.erase ∧ rest = more := by
  obtain ⟨-, docs, shapes, openings, bodies⟩ :=
    opened_of_lines_eq indent finalFields readable other_readable depth rfl same
  cases second with
  | array other =>
    obtain ⟨types, names⟩ := ConstantArray.opening_inj openings
    simp only [body, Line.render_texts, List.map_append, List.append_assoc] at bodies
    obtain ⟨rows, rests⟩ := rows_inj bodies
    have elements := ConstantArray.elements_inj types rows
    refine ⟨?_, rests⟩
    rw [erase, erase, ConstantArray.erase_eq_of_parts types names elements (Option.some.inj docs)]
  | _ => cases shapes

end Kinds

/-- Members that begin the same text are the same, apart from what no text shows, and so is what
follows them in the text. -/
theorem lines_inj {first second : Member} (readable : ∀ node ∈ first.nodes, node.Readable)
    (other_readable : ∀ node ∈ second.nodes, node.Readable) (depth : Nat) {rest more : List String}
    (same : first.lines indent finalFields depth ++ rest =
      second.lines indent finalFields depth ++ more) :
    first.erase = second.erase ∧ rest = more := by
  have here := readable _ (mem_nodes_self _)
  have there := other_readable _ (mem_nodes_self _)
  -- The induction is on the first tree alone; the second is the same as far as it was read.
  induction first using Member.induction generalizing second depth rest more with
  | nested head members ih =>
    refine nested_inj indent finalFields (fun first mem second other_readable _ _ same => ?_)
      readable other_readable same
    have inside := forall_nodes_nested readable first mem
    exact ih first mem inside other_readable (depth + 1) same (inside _ (mem_nodes_self _))
      (other_readable _ (mem_nodes_self _))
  | method m => exact method_inj indent finalFields here there same
  | field f => exact field_inj indent finalFields here there same
  | array a => exact array_inj indent finalFields here there same
  | custom c => exact here.elim

end Member

/-! ### Files -/

namespace File

/-- A file whose package is written on one line and whose tree can be read back. -/
structure Readable (file : File) : Prop where
  package : OneLine file.package
  tree : ∀ node ∈ file.root.toMember.nodes, node.Readable

/-- The lines after the banner. -/
def linesBelow (file : File) : List String :=
  (file.package ++ ";") :: "" ::
    file.root.toMember.lines file.options.indent file.options.finalFields 0

theorem render_append_newline (file : File) :
    file.render ++ "\n" =
      file.banner ++ "\n\npackage " ++ Text.terminated file.linesBelow := by
  have root := file.root.toMember.join_pieces_layout "" file.options.indent
    file.options.finalFields 0
  rw [indented_zero] at root
  rw [render_eq, linesBelow, Text.terminated_cons, Text.terminated_cons, Member.lines, ← root,
    ← String.toList_inj]
  simp [Context.ofOptions, Member.render]

theorem Readable.oneLine {file : File} (readable : file.Readable) :
    ∀ line ∈ file.linesBelow, OneLine line := by
  intro line member
  rcases List.mem_cons.mp member with rfl | member
  · exact readable.package.append (by decide)
  · rcases List.mem_cons.mp member with rfl | member
    · decide
    · obtain ⟨line, mem, rfl⟩ := List.mem_map.mp member
      have unbroken := file.root.toMember.unbroken_layout file.options.finalFields
        (fun node inside => (readable.tree node inside).singleLine) 0 line mem
      exact unbroken.render (by decide) file.options.indent

/-- Files with the same options have the same text exactly if they have the same package and the
same tree, apart from what no text shows. -/
theorem render_eq_iff (first second : File) (same_options : first.options = second.options)
    (readable : first.Readable) (other_readable : second.Readable) :
    first.render = second.render ↔
      first.package = second.package ∧
        first.root.toMember.erase = second.root.toMember.erase := by
  constructor
  · intro same
    have below : first.linesBelow = second.linesBelow := by
      apply Text.terminated_inj readable.oneLine other_readable.oneLine
      have texts := first.render_append_newline
      rw [same, second.render_append_newline, banner, banner, same_options] at texts
      exact (String.append_right_inj _ |>.mp texts).symm
    unfold linesBelow at below
    rw [same_options, List.cons.injEq, List.cons.injEq] at below
    obtain ⟨packages, -, lines⟩ := below
    have trees := Member.lines_inj second.options.indent second.options.finalFields readable.tree
      other_readable.tree 0 (congrArg (· ++ []) lines)
    exact ⟨String.append_left_inj _ |>.mp packages, trees.1⟩
  · rintro ⟨packages, trees⟩
    unfold render pieces filePieces banner
    rw [← Member.pieces_erase, trees, Member.pieces_erase, packages, same_options]

/-- A file with a class that is left out and an array without elements. -/
def withHidden (name : String) (kind : LiteralKind) : File where
  package := "com.example"
  root := ⟨{ name := "R", doc := Doc.comment {} "Resources" },
    [.nested { name } [], .method { signature := "void run()", statements := ["x = 1;"] },
      .field ⟨.string, "text", "\"\n;", {}⟩, .array { kind, name := "values" }]⟩

theorem readable_withHidden {name : String} (valid : IsName name) (kind : LiteralKind) :
    (withHidden name kind).Readable := by
  have plain : ({} : Doc).FromComments := ⟨[], rfl⟩
  refine ⟨show OneLine "com.example" by decide, fun node member => ?_⟩
  simp only [withHidden, ClassDef.toMember, Member.nodes, Member.allNodes, List.append_nil,
    List.cons_append, List.nil_append, List.mem_cons, List.not_mem_nil, or_false] at member
  rcases member with rfl | rfl | rfl | rfl | rfl
  · exact ⟨show IsName "R" by decide, ["Resources"], rfl⟩
  · exact ⟨valid, plain⟩
  · exact ⟨by decide, by decide, by decide, plain⟩
  · exact ⟨show IsName "text" by decide, plain⟩
  · exact ⟨show IsName "values" by decide, plain⟩

theorem render_withHidden :
    (withHidden "id" .id).Readable ∧ (withHidden "attr" .int).Readable ∧
      (withHidden "id" .id).root.members ≠ (withHidden "attr" .int).root.members ∧
      (withHidden "id" .id).render = (withHidden "attr" .int).render := by
  have first := readable_withHidden (show IsName "id" by decide) .id
  have second := readable_withHidden (show IsName "attr" by decide) .int
  refine ⟨first, second, ?_, (render_eq_iff (withHidden "id" .id) (withHidden "attr" .int) rfl
    first second).mpr ⟨rfl, rfl⟩⟩
  intro same
  have names := congrArg (List.map Member.leftOut?) same
  exact absurd names (by decide)

end File

end JavaSource
