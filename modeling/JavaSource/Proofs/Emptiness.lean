import JavaSource.Proofs.Nesting

/-!
# Members that count as empty

Whether a member counts as empty is decided by what it holds, at all depths. Whether it is written
is decided by less: a class is left out if it has no members at all and is not created all the same.
So a class of empty classes counts as empty and is written, and a member that is left out counts as
empty. What does not count as empty is written, and so is every class around it.
-/
namespace JavaSource

namespace Member

/-- What counts by itself: every method, field and array, and a custom member that says so. -/
def isContent : Member → Bool
  | .nested _ _ => false
  | .method _ => true
  | .field _ => true
  | .array _ => true
  | .custom c => !c.empty

theorem isEmpty_nested (head : ClassHead) (members : List Member) :
    (nested head members).isEmpty = members.all isEmpty := by
  rw [isEmpty, allEmpty_eq_all]

/-- A class only asks its direct members, but they ask theirs. -/
theorem isEmpty_iff_nodes (member : Member) :
    member.isEmpty = true ↔ ∀ node ∈ member.nodes, node.isContent = false := by
  induction member using Member.induction with
  | nested head members ih =>
    -- The nodes of a class are itself, which does not count, and those of its direct members.
    rw [isEmpty_nested, List.all_eq_true]
    constructor
    · intro empty node inside
      rw [nodes_nested] at inside
      rcases List.mem_cons.mp inside with rfl | deeper
      · rfl
      · obtain ⟨member, mem, inside⟩ := List.mem_flatMap.mp deeper
        exact (ih member mem).mp (empty member mem) node inside
    · intro none member mem
      exact (ih member mem).mpr (forall_nodes_nested none member mem)
  | method m => simp [isEmpty, nodes, isContent]
  | field f => simp [isEmpty, nodes, isContent]
  | array a => simp [isEmpty, nodes, isContent]
  | custom c => simp [isEmpty, nodes, isContent]

/-! ### What is written -/

/-- A custom member may have no text. Of the others only a class that is left out has none, and
then neither has its documentation. -/
theorem render_eq_empty_iff (member : Member) (own : ∀ content, member ≠ .custom content)
    (margin : String) (context : Context) :
    member.render margin context = "" ↔
      ∃ head, head.createIfEmpty = false ∧ member = .nested head [] := by
  cases member with
  | nested head members =>
    rw [render, pieces]
    split
    next left_out =>
      obtain ⟨rfl, not_created⟩ : members = [] ∧ head.createIfEmpty = false := by
        simpa using left_out
      exact ⟨fun _ => ⟨head, not_created, rfl⟩, fun _ => String.join_nil⟩
    next shown =>
      constructor
      · -- The brace at the end is always there.
        intro nothing
        simp at nothing
      · rintro ⟨other, not_created, same⟩
        cases same
        simp [not_created] at shown
  | method m => simp [render, pieces, Method.pieces]
  | field f => simp [render, pieces, Field.pieces]
  | array a => simp [render, pieces, ConstantArray.pieces]
  | custom c => exact absurd rfl (own c)

theorem isEmpty_of_render_eq_empty {member : Member} (own : ∀ content, member ≠ .custom content)
    {margin : String} {context : Context} (nothing : member.render margin context = "") :
    member.isEmpty = true := by
  obtain ⟨head, -, rfl⟩ := (member.render_eq_empty_iff own margin context).mp nothing
  rfl

end Member

/-! ### Classes around a member -/

theorem Enclosure.isEmpty_fill (enclosure : Enclosure) (member : Member) :
    (enclosure.fill member).isEmpty =
      (member.isEmpty && (enclosure.before ++ enclosure.after).all Member.isEmpty) := by
  rw [fill, Member.isEmpty_nested, List.all_append, List.all_cons, List.all_append,
    Bool.and_left_comm]

namespace Nesting

theorem fill_append (outer inner : Nesting) (member : Member) :
    fill (outer ++ inner) member = fill outer (fill inner member) :=
  List.foldr_append

/-- All that the classes around a member see of it is whether it counts as empty; the more it
counts, the more they do. -/
theorem isEmpty_fill_mono (nesting : Nesting) {first second : Member}
    (less : second.isEmpty = true → first.isEmpty = true)
    (empty : (nesting.fill second).isEmpty = true) : (nesting.fill first).isEmpty = true := by
  induction nesting with
  | nil => exact less empty
  | cons enclosure inner ih =>
    change (enclosure.fill (fill inner second)).isEmpty = true at empty
    change (enclosure.fill (fill inner first)).isEmpty = true
    rw [enclosure.isEmpty_fill, Bool.and_eq_true] at empty ⊢
    exact ⟨ih empty.1, empty.2⟩

theorem isEmpty_of_isEmpty_fill (nesting : Nesting) (member : Member)
    (empty : (nesting.fill member).isEmpty = true) : member.isEmpty = true := by
  induction nesting with
  | nil => exact empty
  | cons enclosure inner ih =>
    change (enclosure.fill (fill inner member)).isEmpty = true at empty
    rw [enclosure.isEmpty_fill, Bool.and_eq_true] at empty
    exact ih empty.1

/-- Only a custom member that stands alone is one of another producer. -/
theorem fill_ne_custom (nesting : Nesting) {member : Member}
    (own : ∀ content, member ≠ .custom content) :
    ∀ content, nesting.fill member ≠ .custom content := by
  intro content same
  cases nesting with
  | nil => exact own content same
  | cons enclosure inner => cases same

end Nesting

theorem ClassDef.isEmpty_add (c : ClassDef) (member : Member) :
    (c.add member).toMember.isEmpty = (c.toMember.isEmpty && member.isEmpty) := by
  rw [toMember, toMember, Member.isEmpty_nested, Member.isEmpty_nested, add, List.all_append,
    List.all_cons, List.all_nil, Bool.and_true]

/-- A member counts as empty exactly if nothing in it, at any depth, counts by itself. It has no
text exactly if it is a class without members that is not created all the same, so what has no text
counts as empty; and what does not count as empty is written, with every class around it, each at
its place in the whole. Adding a member to a class never makes the class, or a class around it,
empty; after adding one that is not empty, none of them is. -/
theorem Member.isEmpty_and_render (context : Context) (margin : String) :
    (∀ member : Member,
      member.isEmpty = true ↔ ∀ node ∈ member.nodes, node.isContent = false) ∧
    (∀ member : Member, (∀ content, member ≠ .custom content) →
      (member.render margin context = "" ↔
        ∃ head, head.createIfEmpty = false ∧ member = .nested head []) ∧
      (member.render margin context = "" → member.isEmpty = true) ∧
      (member.isEmpty = false → ∀ outer inner : Nesting,
        (inner.fill member).render (indented margin context.indent.unit outer.length) context ≠ "" ∧
        ∃ above below, ((outer ++ inner).fill member).render margin context =
          above ++
            (inner.fill member).render (indented margin context.indent.unit outer.length) context ++
            below)) ∧
    (∀ (nesting : Nesting) (c : ClassDef) (member : Member),
      (nesting.fill c.toMember).isEmpty = false →
        (nesting.fill (c.add member).toMember).isEmpty = false) ∧
    (∀ (nesting : Nesting) (c : ClassDef) (member : Member), member.isEmpty = false →
      (nesting.fill (c.add member).toMember).isEmpty = false) := by
  refine ⟨isEmpty_iff_nodes, fun member own => ⟨?_, ?_, ?_⟩, ?_, ?_⟩
  · exact member.render_eq_empty_iff own margin context
  · exact isEmpty_of_render_eq_empty own
  · intro counts outer inner
    constructor
    · -- A class around a member that counts does not count as empty either.
      intro nothing
      have empty := isEmpty_of_render_eq_empty (inner.fill_ne_custom own) nothing
      rw [inner.isEmpty_of_isEmpty_fill member empty] at counts
      cases counts
    · rw [Nesting.fill_append]
      exact ⟨_, _, outer.render_fill context margin (inner.fill member)⟩
  · -- What is empty with the new member was empty without it.
    intro nesting c member counts
    rw [← Bool.not_eq_true] at counts ⊢
    refine fun empty => counts (nesting.isEmpty_fill_mono (fun added => ?_) empty)
    rw [c.isEmpty_add, Bool.and_eq_true] at added
    exact added.1
  · intro nesting c member counts
    rw [← Bool.not_eq_true] at counts ⊢
    intro empty
    have added := nesting.isEmpty_of_isEmpty_fill _ empty
    rw [c.isEmpty_add, Bool.and_eq_true] at added
    exact counts added.2

/-- A class with a class that is created without members, and one that is left out with its
documentation. -/
def emptyClasses : ClassDef where
  head := { name := "R" }
  members :=
    [.nested { name := "id", createIfEmpty := true } [],
      .nested { name := "none", doc := Doc.ofSteps [.comment "@deprecated"] } []]

def emptyMethod : Member := .method { signature := "void f()" }

/-- The class is written though it counts as empty. With a method in it neither the class nor the
one around it is empty, and the method is written two classes deep. -/
theorem Member.isEmpty_and_render_emptyClasses :
    emptyClasses.toMember.isEmpty = true ∧ emptyClasses.toMember.render "" {} ≠ "" ∧
      emptyMethod.isEmpty = false ∧
      (Nesting.fill [⟨{ name := "Outer" }, [], []⟩]
        (emptyClasses.add emptyMethod).toMember).isEmpty = false ∧
      ∃ above below, (Nesting.fill [⟨{ name := "Outer" }, [], []⟩, ⟨{ name := "R" }, [], []⟩]
        emptyMethod).render "" {} = above ++ emptyMethod.render "    " {} ++ below := by
  obtain ⟨counts, written, -, added⟩ := isEmpty_and_render {} ""
  have no_custom : ∀ content, emptyClasses.toMember ≠ .custom content := by
    intro content same
    cases same
  have method : ∀ content, emptyMethod ≠ .custom content := by
    intro content same
    cases same
  refine ⟨(counts _).mpr (by decide), ?_, by decide, added _ _ _ (by decide), ?_⟩
  · intro nothing
    obtain ⟨head, -, same⟩ := (written _ no_custom).1.mp nothing
    cases same
  · exact ((written _ method).2.2 (by decide)
      [⟨{ name := "Outer" }, [], []⟩, ⟨{ name := "R" }, [], []⟩] []).2

end JavaSource
