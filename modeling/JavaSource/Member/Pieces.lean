import JavaSource.Context
import JavaSource.Member.Basic

/-!
# Text of a member

A member's text is a list of pieces: the texts that are written one after another, each in one
write. No line end follows the last line of a member; a class adds it after each of its members.
A class that has no members, and is not created all the same, has no pieces, not even those of its
documentation.
-/
namespace JavaSource

def ClassHead.pieces (head : ClassHead) (margin : String) : List String :=
  head.doc.pieces margin ++ [margin, "public "] ++
    (if head.qualifier = .static then ["static "] else []) ++
    ["final class ", head.name, " \x7b", "\n"]

/-- Statements stand two spaces inside the method, whatever the indentation unit. -/
def Method.pieces (method : Method) (margin : String) : List String :=
  method.doc.pieces margin ++ [margin, method.signature, " \x7b", "\n"] ++
    method.statements.flatMap (fun statement => [margin, "  ", statement, "\n"]) ++
    [margin, "\x7d"]

def Field.pieces (field : Field) (context : Context) (margin : String) : List String :=
  field.doc.pieces margin ++ [margin, "public static "] ++
    (if context.finalFields then ["final "] else []) ++
    [field.kind.javaType, " ", field.name, "=", Literal.text field.kind field.value, ";"]

namespace ConstantArray

def literals (array : ConstantArray) : List String := array.elements.map (Literal.text array.kind)

/-- What goes before the element at an index: four elements stand on each line. -/
def separator (margin unit : String) (index : Nat) : List String :=
  if index % 4 = 0 then
    (if index > 0 then [","] else []) ++ ["\n", margin, unit, unit]
  else [", "]

def elementPieces (margin unit : String) : Nat → List String → List String
  | _, [] => []
  | index, literal :: rest =>
    separator margin unit index ++ literal :: elementPieces margin unit (index + 1) rest

/-- Arrays are final whatever the context says. -/
def pieces (array : ConstantArray) (context : Context) (margin : String) : List String :=
  let unit := context.indent.unit
  array.doc.pieces margin ++
    [margin, "public static final ", array.kind.javaType, "[] ", array.name, "=\x7b"] ++
    elementPieces margin unit 0 array.literals ++ ["\n", margin, unit, "\x7d;"]

end ConstantArray

namespace Member

mutual

def pieces (context : Context) (margin : String) : Member → List String
  | .nested head members =>
    if members.isEmpty && !head.createIfEmpty then []
    else
      head.pieces margin ++ innerPieces context (context.inner margin) members ++ [margin, "\x7d"]
  | .method m => m.pieces margin
  | .field f => f.pieces context margin
  | .array a => a.pieces context margin
  | .custom c => [margin, c.text]

/-- Each member, with the line end after it. -/
def innerPieces (context : Context) (margin : String) : List Member → List String
  | [] => []
  | first :: rest => pieces context margin first ++ "\n" :: innerPieces context margin rest

end

theorem innerPieces_eq_flatMap (context : Context) (margin : String) (members : List Member) :
    innerPieces context margin members =
      members.flatMap (fun member => pieces context margin member ++ ["\n"]) := by
  induction members with
  | nil => rfl
  | cons first rest ih => simp [innerPieces, ih]

def render (member : Member) (margin : String) (context : Context) : String :=
  String.join (member.pieces context margin)

end Member

end JavaSource
