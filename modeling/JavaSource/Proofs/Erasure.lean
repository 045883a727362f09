import JavaSource.Proofs.Layout

/-!
# What a text does not show of a tree

Different trees can have the same text. Erasing from a tree what its text does not show keeps the
text, and makes such trees equal.
-/
namespace JavaSource

/-- Without elements an array of identifiers looks like an array of integers. -/
def ConstantArray.erase (array : ConstantArray) : ConstantArray :=
  if array.elements.isEmpty ∧ array.kind.javaType = "int" then
    ⟨.int, array.name, [], array.doc⟩
  else array

/-- Two arrays of one Java type are the same for the reader when both have no elements, or when
they have the same elements of the same kind. -/
theorem ConstantArray.erase_eq_of_parts {array other : ConstantArray}
    (types : array.kind.javaType = other.kind.javaType) (names : array.name = other.name)
    (elements : array.elements = [] ∧ other.elements = [] ∨
      (⟨array.kind, array.elements⟩ : (kind : LiteralKind) × List kind.Value) =
        ⟨other.kind, other.elements⟩) (docs : array.doc = other.doc) :
    array.erase = other.erase := by
  obtain ⟨kind, name, values, doc⟩ := array
  obtain ⟨other_kind, other_name, other_values, other_doc⟩ := other
  cases names
  cases docs
  rcases elements with ⟨none, other_none⟩ | same
  · obtain rfl : values = [] := none
    obtain rfl : other_values = [] := other_none
    change kind.javaType = other_kind.javaType at types
    cases kind <;> cases other_kind <;> first | rfl | exact absurd types (by decide)
  · cases same
    rfl

namespace Member

mutual

/-- What the text of a member shows of it. A class that is left out is one like any other, a class
that has members does not show whether it would be created without them, and an array without
elements does not show which of the two kinds of Java type `int` it has. -/
def erase : Member → Member
  | .nested head members =>
    if members.isEmpty && !head.createIfEmpty then .nested { name := "" } []
    -- A class that is shown without members is one that is created without them.
    else .nested { head with createIfEmpty := members.isEmpty } (eraseAll members)
  | .method m => .method m
  | .field f => .field f
  | .array a => .array a.erase
  | .custom c => .custom c

def eraseAll : List Member → List Member
  | [] => []
  | first :: rest => erase first :: eraseAll rest

end

theorem eraseAll_eq_map (members : List Member) : eraseAll members = members.map erase := by
  induction members with
  | nil => rfl
  | cons first rest ih => simp only [eraseAll, List.map_cons, ih]

/-- What is erased has no part in the text. -/
theorem pieces_erase (context : Context) (margin : String) (member : Member) :
    member.erase.pieces context margin = member.pieces context margin := by
  induction member using Member.induction generalizing margin with
  | nested head members ih =>
    unfold erase
    split
    next left_out => simp [pieces, left_out]
    next shown =>
      have inner : innerPieces context (context.inner margin) (members.map erase) =
          innerPieces context (context.inner margin) members := by
        rw [innerPieces_eq_flatMap, innerPieces_eq_flatMap, List.flatMap_map]
        exact congrArg List.flatten (List.map_congr_left (fun member mem => by rw [ih member mem]))
      have still_shown : ¬ ((members.map erase).isEmpty && !members.isEmpty) = true := by simp
      rw [eraseAll_eq_map, pieces, pieces, if_neg shown, if_neg still_shown, inner]
      rfl
  | method m => rw [erase]
  | field f => rw [erase]
  | array a =>
    rw [erase, ConstantArray.erase]
    split
    next empty =>
      obtain ⟨none, type⟩ := empty
      have int : LiteralKind.int.javaType = "int" := rfl
      simp [pieces, ConstantArray.pieces, ConstantArray.literals, List.isEmpty_iff.mp none, type,
        int]
    next => rfl
  | custom c => rw [erase]

theorem erase_of_shown {head : ClassHead} {members : List Member}
    (shown : leftOut? (.nested head members) = none) :
    (nested head members).erase =
      .nested { head with createIfEmpty := members.isEmpty } (members.map erase) := by
  rw [erase, eraseAll_eq_map, if_neg (fun empty => by simp [leftOut?, empty] at shown)]

theorem erase_of_leftOut {member : Member} {head : ClassHead}
    (left_out : leftOut? member = some head) : member.erase = .nested { name := "" } [] := by
  cases member with
  | nested head members =>
    rw [erase, if_pos (Option.ite_none_right_eq_some.mp left_out).1]
  | _ => cases left_out

end Member

end JavaSource
