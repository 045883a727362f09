import JavaSource.Member.Basic

/-!
# The members of a tree

Induction over a tree of members, with the members of a class as one list, and the list of all
members that a tree holds.
-/
namespace JavaSource.Member

/-- What holds of a class whenever it holds of its members, and of all other kinds of members,
holds of every member. -/
@[elab_as_elim]
theorem induction {P : Member → Prop}
    (nested : ∀ head members, (∀ member ∈ members, P member) → P (.nested head members))
    (method : ∀ content, P (.method content)) (field : ∀ content, P (.field content))
    (array : ∀ content, P (.array content)) (custom : ∀ content, P (.custom content)) :
    ∀ member, P member := by
  refine @Member.rec P (fun members => ∀ member ∈ members, P member)
    nested method field array custom ?_ ?_
  · intro member member_nil
    cases member_nil
  · intro first rest holds_first holds_rest member mem
    rcases List.mem_cons.mp mem with rfl | later
    · exact holds_first
    · exact holds_rest member later

mutual

/-- Every member of the tree, a class before the members inside it. -/
def nodes : Member → List Member
  | .nested head members => .nested head members :: allNodes members
  | .method m => [.method m]
  | .field f => [.field f]
  | .array a => [.array a]
  | .custom c => [.custom c]

def allNodes : List Member → List Member
  | [] => []
  | first :: rest => nodes first ++ allNodes rest

end

theorem allNodes_eq_flatMap (members : List Member) : allNodes members = members.flatMap nodes := by
  induction members with
  | nil => rfl
  | cons first rest ih => simp only [allNodes, List.flatMap_cons, ih]

theorem nodes_nested (head : ClassHead) (members : List Member) :
    (nested head members).nodes = .nested head members :: members.flatMap nodes := by
  rw [nodes, allNodes_eq_flatMap]

theorem mem_nodes_self (member : Member) : member ∈ member.nodes := by
  cases member <;> simp [nodes]

/-- What holds of all members in a class holds of those in each of its members. -/
theorem forall_nodes_nested {P : Member → Prop} {head : ClassHead} {members : List Member}
    (all : ∀ node ∈ (nested head members).nodes, P node) :
    ∀ member ∈ members, ∀ node ∈ member.nodes, P node := by
  intro member mem node inside
  apply all
  rw [nodes_nested]
  exact List.mem_cons_of_mem _ (List.mem_flatMap.mpr ⟨member, mem, inside⟩)

/-- The head of a class that is left out of the text: it has no members, and is not created all
the same. -/
def leftOut? : Member → Option ClassHead
  | .nested head members => if members.isEmpty && !head.createIfEmpty then some head else none
  | _ => none

end JavaSource.Member
