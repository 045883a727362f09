import JavaSource.Doc
import JavaSource.Literal

/-!
# Members of a class

A class holds members in order: further classes, methods with literal statements, constant fields,
constant arrays, and custom members that stand for one text of another producer. A class is its
head and its members, so that the class at the root of a file and a class inside another have the
same parts.
-/
namespace JavaSource

inductive Qualifier where
  | plain
  | static
  deriving DecidableEq, Repr

structure ClassHead where
  name : String
  qualifier : Qualifier := .plain
  createIfEmpty : Bool := false
  doc : Doc := {}
  deriving DecidableEq, Repr

structure Method where
  signature : String
  statements : List String := []
  doc : Doc := {}
  deriving DecidableEq, Repr

structure Field where
  kind : LiteralKind
  name : String
  value : kind.Value
  doc : Doc := {}

structure ConstantArray where
  kind : LiteralKind
  name : String
  elements : List kind.Value := []
  doc : Doc := {}

/-- A member of another producer: it writes its text at the margin and says itself whether it
counts as empty. What holds of a writer and its sink holds of any pieces, and so of producers that
write others. -/
structure Custom where
  text : String
  empty : Bool := false
  deriving DecidableEq, Repr

inductive Member where
  | nested (head : ClassHead) (members : List Member)
  | method (content : Method)
  | field (content : Field)
  | array (content : ConstantArray)
  | custom (content : Custom)

structure ClassDef where
  head : ClassHead
  members : List Member := []

namespace Member

mutual

/-- A class is empty when all its direct members are; only classes and custom members can be. -/
def isEmpty : Member → Bool
  | .nested _ members => allEmpty members
  | .method _ => false
  | .field _ => false
  | .array _ => false
  | .custom c => c.empty

def allEmpty : List Member → Bool
  | [] => true
  | first :: rest => isEmpty first && allEmpty rest

end

theorem allEmpty_eq_all (members : List Member) : allEmpty members = members.all isEmpty := by
  induction members with
  | nil => rfl
  | cons first rest ih => simp only [allEmpty, List.all_cons, ih]

def doc? : Member → Option Doc
  | .nested head _ => some head.doc
  | .method m => some m.doc
  | .field f => some f.doc
  | .array a => some a.doc
  | .custom _ => none

/-- Changes the documentation; a custom member has none. -/
def mapDoc? (change : Doc → Doc) : Member → Option Member
  | .nested head members => some (.nested { head with doc := change head.doc } members)
  | .method m => some (.method { m with doc := change m.doc })
  | .field f => some (.field { f with doc := change f.doc })
  | .array a => some (.array { a with doc := change a.doc })
  | .custom _ => none

end Member

namespace ClassDef

def toMember (c : ClassDef) : Member := .nested c.head c.members

def add (c : ClassDef) (member : Member) : ClassDef := { c with members := c.members ++ [member] }

def mapDoc (change : Doc → Doc) (c : ClassDef) : ClassDef :=
  { c with head := { c.head with doc := change c.head.doc } }

end ClassDef

end JavaSource
