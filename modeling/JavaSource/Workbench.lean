import JavaSource.File

/-!
# Workbench

A workbench holds members and files in named slots while they are put together. A step that cannot
be done says why and changes nothing.
-/
namespace JavaSource

/-- What a slot holds. -/
inductive Workbench.Item where
  | member (content : Member)
  | file (content : File)

/-- Why a step cannot be done: no such slot, the wrong kind of item in it, or options that cannot be
read. -/
inductive Workbench.Trouble where
  | unknown (slot : String)
  | wrongKind (operation : String)
  | badOptions (error : Error)
  deriving DecidableEq, Repr

/-- The slots in use; the first entry with a name is the one that counts. -/
structure Workbench where
  slots : List (String × Workbench.Item) := []

namespace Workbench

def find? (bench : Workbench) (slot : String) : Option Item := bench.slots.lookup slot

def remove (bench : Workbench) (slot : String) : Workbench :=
  ⟨bench.slots.filter fun entry => entry.1 != slot⟩

/-- Puts an item into a slot, in place of what was there. -/
def put (bench : Workbench) (slot : String) (item : Item) : Workbench :=
  ⟨(slot, item) :: (bench.remove slot).slots⟩

theorem find?_cons (name other : String) (item : Item) (rest : List (String × Item)) :
    (⟨(name, item) :: rest⟩ : Workbench).find? other =
      if other = name then some item else (⟨rest⟩ : Workbench).find? other := by
  simp only [find?, List.lookup_cons]
  by_cases here : other = name
  · simp [here]
  · rw [if_neg here, beq_eq_false_iff_ne.mpr here]

theorem find?_remove (bench : Workbench) (slot other : String) :
    (bench.remove slot).find? other = if other = slot then none else bench.find? other := by
  obtain ⟨slots⟩ := bench
  induction slots with
  | nil => simp [remove, find?]
  | cons entry rest ih =>
    obtain ⟨name, item⟩ := entry
    unfold remove at ih ⊢
    by_cases gone : name = slot
    · -- A lookup of another slot passes the entry by.
      subst gone
      rw [List.filter_cons_of_neg (by simp), ih, find?_cons]
      split <;> rfl
    · rw [List.filter_cons_of_pos (by simpa using gone), find?_cons, find?_cons, ih]
      by_cases here : other = name
      · rw [if_pos here, if_pos here, if_neg (by rwa [here])]
      · rw [if_neg here, if_neg here]

theorem find?_put (bench : Workbench) (slot other : String) (item : Item) :
    (bench.put slot item).find? other = if other = slot then some item else bench.find? other := by
  refine (find?_cons slot other item _).trans ?_
  by_cases here : other = slot
  · rw [if_pos here, if_pos here]
  · have kept := find?_remove bench slot other
    rw [if_neg here] at kept
    rw [if_neg here, if_neg here, ← kept]

def get (bench : Workbench) (slot : String) : Except Trouble Item :=
  match bench.find? slot with
  | some item => .ok item
  | none => .error (.unknown slot)

/-- Replaces the item in a slot by what a step makes of it, and returns that. -/
def change (bench : Workbench) (slot : String) (step : Item → Except Trouble Item) :
    Except Trouble (Item × Workbench) := do
  let item ← step (← bench.get slot)
  return (item, bench.put slot item)

/-- Takes a member out of its slot, to become part of another item. -/
def takeOut (bench : Workbench) (slot target : String) :
    Except Trouble (Member × Workbench) :=
  if slot = target then .error (.unknown slot)
  else
    match bench.find? slot with
    | none => .error (.unknown slot)
    | some (.file _) => .error (.wrongKind "add")
    | some (.member member) => .ok (member, bench.remove slot)

/-- Moves the member in slot `source` into the item that is made of it for `slot`. -/
def move (bench : Workbench) (slot source : String) (make : Member → Item) :
    Except Trouble (Item × Workbench) := do
  let (member, rest) ← bench.takeOut source slot
  return (make member, rest.put slot (make member))

/-- Moves the member in slot `source` into the class, or the root class of the file, in `slot`. -/
def add (bench : Workbench) (slot source : String) : Except Trouble (Item × Workbench) := do
  match ← bench.get slot with
  | .member (.nested head members) =>
    bench.move slot source fun member => .member (ClassDef.add ⟨head, members⟩ member).toMember
  | .member _ => .error (.wrongKind "add")
  | .file file => bench.move slot source fun member => .file (file.add member)

/-- Adds to the documentation of a member, or of the root class of a file. -/
def document (bench : Workbench) (slot : String) (step : Doc.Step) :
    Except Trouble (Item × Workbench) :=
  bench.change slot fun
  | .member member =>
    match member.mapDoc? (·.apply step) with
    | some changed => .ok (.member changed)
    | none => .error (.wrongKind "doc")
  | .file file => .ok (.file { file with root := file.root.mapDoc (·.apply step) })

/-- The kind of the elements that the array in a slot holds. -/
def arrayKindAt (bench : Workbench) (slot : String) : Except Trouble LiteralKind := do
  match ← bench.get slot with
  | .member (.array a) => return a.kind
  | _ => .error (.wrongKind "element")

/-- Adds an element to an array, which takes only elements of its own kind. -/
def addElement (bench : Workbench) (slot : String) (kind : LiteralKind) (value : kind.Value) :
    Except Trouble (Item × Workbench) :=
  bench.change slot fun
  | .member (.array a) =>
    if same : kind = a.kind then
      .ok (.member (.array { a with elements := a.elements ++ [same ▸ value] }))
    else .error (.wrongKind "element")
  | _ => .error (.wrongKind "element")

def addStatement (bench : Workbench) (slot statement : String) :
    Except Trouble (Item × Workbench) :=
  bench.change slot fun
  | .member (.method m) =>
    .ok (.member (.method { m with statements := m.statements ++ [statement] }))
  | _ => .error (.wrongKind "statement")

/-- Turns a class into a file of its own. -/
def makeFile (bench : Workbench) (slot package : String) : Except Trouble (Item × Workbench) :=
  bench.change slot fun
  | .member (.nested head members) => .ok (.file { package, root := ⟨head, members⟩ })
  | _ => .error (.wrongKind "file")

/-- Gives options to a file, if they could be read. -/
def setOptions (bench : Workbench) (slot : String) (options : Except Error Options) :
    Except Trouble (Item × Workbench) :=
  bench.change slot fun
  | .file file =>
    match options with
    | .ok options => .ok (.file (file.withOptions options))
    | .error error => .error (.badOptions error)
  | .member _ => .error (.wrongKind "options")

/-! ### Steps -/

/-- What a workbench can be told to do. -/
inductive Step where
  | new (slot : String) (content : Member)
  | add (slot source : String)
  | document (slot : String) (step : Doc.Step)
  | element (slot : String) (kind : LiteralKind) (value : kind.Value)
  | statement (slot content : String)
  | file (slot package : String)
  | options (slot : String) (given : Except Error Options)

/-- The slot whose item a step makes or changes. -/
def Step.slot : Step → String
  | .new slot _ => slot
  | .add slot _ => slot
  | .document slot _ => slot
  | .element slot _ _ => slot
  | .statement slot _ => slot
  | .file slot _ => slot
  | .options slot _ => slot

/-- The slot that a step takes a member out of. -/
def Step.source? : Step → Option String
  | .add _ source => some source
  | _ => none

/-- The item that a step makes, and the workbench that holds it. -/
def apply (bench : Workbench) : Step → Except Trouble (Item × Workbench)
  | .new slot content => .ok (.member content, bench.put slot (.member content))
  | .add slot source => bench.add slot source
  | .document slot step => bench.document slot step
  | .element slot kind value => bench.addElement slot kind value
  | .statement slot content => bench.addStatement slot content
  | .file slot package => bench.makeFile slot package
  | .options slot given => bench.setOptions slot given

/-- The answer to a step, and the workbench after it. -/
def perform (bench : Workbench) (step : Step) : Except Trouble Item × Workbench :=
  match bench.apply step with
  | .ok (item, after) => (.ok item, after)
  | .error trouble => (.error trouble, bench)

/-- The file in a slot, to be written. -/
def fileAt (bench : Workbench) (slot : String) : Except Trouble File := do
  match ← bench.get slot with
  | .file file => return file
  | .member _ => .error (.wrongKind "write")

end Workbench

end JavaSource
