import JavaSource.Error
import JavaSource.Indent
import JavaSource.Toml.KeyOrder

/-!
# The shape of an options document

The top-level keys are `package`, `final-fields`, `indent` and `banner`, each of its own type and
all of them optional. The entries are visited in key order, and the first that does not fit is the
fault of the document.
-/
namespace JavaSource.Options

open Toml (Value Entry Table)

/-- A fault and the bytes it is about. -/
structure Mismatch where
  cause : SchemaFault
  span : Span
  deriving DecidableEq, Repr

/-- How a value is named where another type is expected; numbers that no number type of the reader
can hold are faults of their own. -/
def found : Value → Except SchemaFault Found
  | .string text => .ok (.text text)
  | .integer none => .error .integerOverflow
  | .integer (some value) =>
    if Width.fits 128 value then .ok (.integer value) else .error .integerOverflow
  | .float literal =>
    match literal.toBinary64? with
    | some value => .ok (.float value)
    | none => .error .floatOverflow
  | .boolean value => .ok (.boolean value)
  | .datetime _ => .ok .map
  | .array _ => .ok .sequence
  | .table _ => .ok .map

def wrongType (value : Value) (expected : Expected) : SchemaFault :=
  match found value with
  | .ok found => .wrongType found expected
  | .error fault => fault

def readString : Value → Except SchemaFault String
  | .string text => .ok text
  | value => .error (wrongType value .text)

def readBoolean : Value → Except SchemaFault Bool
  | .boolean value => .ok value
  | value => .error (wrongType value .boolean)

/-- A number that 64 bits hold is out of range; a larger one is of another type. -/
def readByte : Value → Except SchemaFault UInt8
  | .integer (some value) =>
    if Width.isUnsigned 8 value then .ok (UInt8.ofNat value.toNat)
    else if Width.fits 64 value then .error (.outOfRange value)
    else .error (wrongType (.integer value) .byte)
  | value => .error (wrongType value .byte)

/-- The value of `tab` in a table: nothing, spelled as an empty table or an empty array. -/
def readNothing : Value → Except SchemaFault Unit
  | .table [] => .ok ()
  | .table (_ :: _) => .error .tableNotEmpty
  | .array [] => .ok ()
  | .array (_ :: _) => .error .arrayNotEmpty
  | value => .error (.notTable value.kindName)

/-- Puts a fault at a span. -/
def locate {α : Type} (span : Span) : Except SchemaFault α → Except Mismatch α
  | .ok value => .ok value
  | .error cause => .error ⟨cause, span⟩

/-- An indentation is `"tab"`, or a table with one key: `spaces` with a width, or `tab`. -/
def readIndent (value : Value) (span : Span) : Except Mismatch Indent :=
  match value with
  | .string name =>
    if name = "tab" then .ok .tab
    else if name = "spaces" then .error ⟨.missingWidth, span⟩
    else .error ⟨.unknownVariant name, span⟩
  | .table [] => .error ⟨.noEntry, span⟩
  | .table [entry] =>
    if entry.key = "spaces" then (locate entry.span (readByte entry.value)).map .spaces
    else if entry.key = "tab" then (locate entry.span (readNothing entry.value)).map fun _ => .tab
    else .error ⟨.unknownVariant entry.key, entry.keySpan⟩
  | .table _ => .error ⟨.manyEntries, span⟩
  | _ => .error ⟨.notStringOrTable, span⟩

/-- The values that a document gives, still as they are written. -/
structure Draft where
  package : Option (Located String) := none
  finalFields : Bool := true
  indent : Option (Located Indent) := none
  banner : Option (Located String) := none
  deriving DecidableEq, Repr

inductive Setting where
  | package
  | finalFields
  | indent
  | banner
  deriving DecidableEq, Repr

def Setting.key : Setting → String
  | .package => "package"
  | .finalFields => "final-fields"
  | .indent => "indent"
  | .banner => "banner"

def Setting.ofKey? (key : String) : Option Setting :=
  [Setting.package, .finalFields, .indent, .banner].find? fun setting => setting.key = key

theorem Setting.ofKey?_eq_some_iff (key : String) (setting : Setting) :
    Setting.ofKey? key = some setting ↔ setting.key = key := by
  constructor
  · intro found
    simpa using List.find?_some found
  · rintro rfl
    cases setting <;> decide

namespace Draft

def take (draft : Draft) (entry : Entry Value) : Except Mismatch Draft :=
  match Setting.ofKey? entry.key with
  | none => .error ⟨.unknownField entry.key, entry.keySpan⟩
  | some .package =>
    (locate entry.span (readString entry.value)).map fun text =>
      { draft with package := some ⟨text, entry.span⟩ }
  | some .finalFields =>
    (locate entry.span (readBoolean entry.value)).map fun value =>
      { draft with finalFields := value }
  | some .indent =>
    (readIndent entry.value entry.span).map fun indent =>
      { draft with indent := some ⟨indent, entry.span⟩ }
  | some .banner =>
    (locate entry.span (readString entry.value)).map fun text =>
      { draft with banner := some ⟨text, entry.span⟩ }

def ofTable (table : Table) : Except Mismatch Draft := (Toml.sortByKey table).foldlM take {}

end Draft

end JavaSource.Options
