import JavaSource.Proofs.OneLine

/-!
# The layout decides the text

For every margin and every indentation unit the text of a member is its layout, line by line. The
layout knows neither of them.
-/
namespace JavaSource

/-- A line that is not broken stays in one piece below any margin of one line. -/
theorem Line.Unbroken.render {line : Line} (unbroken : line.Unbroken) {margin : String}
    (single : OneLine margin) (indent : Indent) : OneLine (line.render margin indent.unit) := by
  cases line with
  | blank head => exact (by decide : OneLine "")
  | text depth content =>
    have unit : OneLine indent.unit := by
      intro newline
      rcases indent.unit_blank.2 _ newline with blank | tab
      · cases blank
      · cases tab
    have units : OneLine (String.join (List.replicate depth indent.unit)) := by
      simp_all [OneLine]
    exact (single.append units).append unbroken

namespace Member

theorem render_eq_intercalate_layout (member : Member) (margin : String) (indent : Indent)
    (finalFields : Bool) :
    member.render margin ⟨indent, finalFields⟩ =
      "\n".intercalate ((member.layout finalFields 0).map (Line.render margin indent.unit)) := by
  have ended := member.join_pieces_layout margin indent finalFields 0
  rw [indented_zero, ← Text.intercalate_append_newline _ (by simp [layout_ne_nil])] at ended
  simpa [← String.toList_inj, render] using ended

/-- The blank marks of a layout are the classes that are left out, in the order of the tree. -/
theorem leftOut?_layout (finalFields : Bool) (depth : Nat) (member : Member) :
    (member.layout finalFields depth).filterMap Line.leftOut? =
      member.nodes.filterMap leftOut? := by
  induction member using Member.induction generalizing depth with
  | nested head members ih =>
    have inner : (members.flatMap (layout finalFields (depth + 1))).filterMap Line.leftOut? =
        (members.flatMap nodes).filterMap leftOut? := by
      rw [List.filterMap_flatMap, List.filterMap_flatMap]
      exact congrArg List.flatten
        (List.map_congr_left (fun member mem => ih member mem (depth + 1)))
    rw [nodes_nested, layout]
    -- A class that is left out has no members, so its mark is the only one.
    split
    next empty =>
      have left_out : leftOut? (.nested head members) = some head := if_pos empty
      obtain ⟨rfl, -⟩ : members = [] ∧ _ := by simpa using empty
      rw [List.filterMap_cons_some left_out]
      rfl
    next shown =>
      have kept : leftOut? (.nested head members) = none := if_neg shown
      rw [innerLayout_eq_flatMap, List.filterMap_append, List.filterMap_append, inner,
        Line.leftOut?_texts, List.filterMap_cons_none kept]
      simp [Line.leftOut?]
  | method m => simp [layout, nodes, leftOut?, Line.leftOut?_texts]
  | field f => simp [layout, nodes, leftOut?, Line.leftOut?_texts]
  | array a =>
    simp [List.filterMap_cons, layout, ConstantArray.layout, nodes, leftOut?,
      Line.leftOut?_texts, Line.leftOut?]
  | custom c => simp [List.filterMap_cons, layout, nodes, leftOut?, Line.leftOut?]

/-- The lines of a class that is not left out, with its members one level below it. -/
theorem layout_nested (finalFields : Bool) (depth : Nat) (head : ClassHead)
    (members : List Member) (shown : leftOut? (.nested head members) = none) :
    (nested head members).layout finalFields depth =
      Line.texts depth (head.doc.contents ++ [head.content]) ++
        members.flatMap (layout finalFields (depth + 1)) ++ [.text depth "\x7d"] := by
  rw [layout, innerLayout_eq_flatMap, if_neg (fun empty => by simp [leftOut?, empty] at shown)]

/-- The text of every member is its layout, joined by line feeds, for every margin and unit. In
the layout the members of a class stand one level below it, the rows of an array two levels and
its closing line one level below the array, and all lines of a method at its own depth. The blank
marks are the classes that are left out, in order. Names, signatures, statements, annotations and
custom texts of one line leave every line whole, whatever the comments and string values are. -/
theorem layout_refines_render (finalFields : Bool) :
    (∀ (member : Member) (margin : String) (indent : Indent),
      member.render margin ⟨indent, finalFields⟩ =
        "\n".intercalate ((member.layout finalFields 0).map (Line.render margin indent.unit))) ∧
    (∀ head members depth, leftOut? (.nested head members) = none →
      (nested head members).layout finalFields depth =
        Line.texts depth (head.doc.contents ++ [head.content]) ++
          members.flatMap (layout finalFields (depth + 1)) ++ [.text depth "\x7d"]) ∧
    (∀ content depth, (array content).layout finalFields depth =
      Line.texts depth (content.doc.contents ++ [content.opening]) ++
        Line.texts (depth + 2) content.rows ++ [.text (depth + 1) "\x7d;"]) ∧
    (∀ content depth, (method content).layout finalFields depth =
      Line.texts depth (content.doc.contents ++ [content.opening] ++
        content.statements.map ("  " ++ ·) ++ ["\x7d"])) ∧
    (∀ content depth, (field content).layout finalFields depth =
      Line.texts depth (content.doc.contents ++ [content.content finalFields])) ∧
    (∀ content depth, (custom content).layout finalFields depth = [.text depth content.text]) ∧
    (∀ member depth, (layout finalFields depth member).filterMap Line.leftOut? =
      member.nodes.filterMap leftOut?) ∧
    (∀ member : Member, (∀ node ∈ member.nodes, node.SingleLine) →
      ∀ depth, ∀ line ∈ member.layout finalFields depth, line.Unbroken) := by
  refine ⟨fun member margin indent => ?_, fun head members depth shown => ?_,
    fun content depth => ?_, fun content depth => ?_, fun content depth => ?_,
    fun content depth => ?_, fun member depth => ?_, fun member single depth => ?_⟩
  · exact member.render_eq_intercalate_layout margin indent finalFields
  · exact layout_nested finalFields depth head members shown
  · rw [layout, ConstantArray.layout]
  · rw [layout, Method.contents]
  · rw [layout]
  · rw [layout]
  · exact leftOut?_layout finalFields depth member
  · exact member.unbroken_layout finalFields single depth

/-- A class whose comment and string value have line feeds in them, around a class that is left
out. -/
def brokenTexts : Member :=
  .nested ⟨"R", .plain, false, Doc.ofSteps [.comment "one\ntwo"]⟩
    [.nested ⟨"Empty", .static, false, {}⟩ [], .field ⟨.string, "text", "a\nb", {}⟩]

theorem layout_brokenTexts :
    brokenTexts.layout true 0 =
      [.text 0 "/**", .text 0 " * one", .text 0 " * two", .text 0 " */",
        .text 0 "public final class R \x7b", .blank ⟨"Empty", .static, false, {}⟩,
        .text 1 "public static final String text=\"a\\nb\";", .text 0 "\x7d"] ∧
    ∀ line ∈ brokenTexts.layout true 0, line.Unbroken := by
  refine ⟨by decide, (layout_refines_render true).2.2.2.2.2.2.2 brokenTexts ?_ 0⟩
  intro node member
  have cases : node = brokenTexts ∨ node = .nested ⟨"Empty", .static, false, {}⟩ [] ∨
      node = .field ⟨.string, "text", "a\nb", {}⟩ := by
    simpa [brokenTexts, nodes, allNodes] using member
  rcases cases with rfl | rfl | rfl
  · exact ⟨by decide, [.comment "one\ntwo"], rfl, by simp⟩
  · exact ⟨by decide, [], rfl, by simp⟩
  · exact ⟨by decide, [], rfl, by simp⟩

end Member

end JavaSource
