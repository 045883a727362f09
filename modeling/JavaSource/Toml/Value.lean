import JavaSource.Decimal.Binary64
import JavaSource.Span

/-!
# TOML values

A document is a table: a list of entries with different keys. Every key and every value knows the
bytes it stands at; the value of a table that only a header or a dotted key made stands at that
header or at that part of the key.
-/
namespace JavaSource.Toml

/-- A float as it is written, before it is rounded. -/
inductive FloatLiteral where
  | nan
  | infinite (negative : Bool)
  | decimal (negative : Bool) (digits : Nat) (power : Int)
  deriving DecidableEq, Repr

/-- The nearest binary64 number; `none` if a finite literal has none that is finite. -/
def FloatLiteral.toBinary64? : FloatLiteral → Option Decimal.Binary64
  | .nan => some .nan
  | .infinite negative => some (.infinite negative)
  | .decimal negative digits power =>
    match Decimal.Binary64.ofDecimal negative digits power with
    | .finite negative mantissa exponent => some (.finite negative mantissa exponent)
    | _ => none

structure Entry (α : Type) where
  key : String
  keySpan : Span
  value : α
  span : Span

/-- An integer has no value if its digits make up no number. -/
inductive Value where
  | string (text : String)
  | integer (value : Option Int)
  | float (value : FloatLiteral)
  | boolean (value : Bool)
  | datetime (text : String)
  | array (items : List (Located Value))
  | table (entries : List (Entry Value))

abbrev Table := List (Entry Value)

/-- The name a message gives to the kind of a value. -/
def Value.kindName : Value → String
  | .string _ => "string"
  | .integer _ => "integer"
  | .float _ => "float"
  | .boolean _ => "boolean"
  | .datetime _ => "datetime"
  | .array _ => "array"
  | .table _ => "table"

end JavaSource.Toml
