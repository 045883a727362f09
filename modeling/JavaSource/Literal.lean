import JavaSource.ResourceId

/-!
# Java literals

The four kinds of constants: resource identifiers and integers, both of the Java type `int`,
booleans and strings. In a string literal quote, backslash, line feed, carriage return and tab
have short escapes, and every other control character is written as `\u` with four digits.
-/
namespace JavaSource

inductive LiteralKind where
  | id
  | int
  | bool
  | string
  deriving DecidableEq, Repr

namespace LiteralKind

@[reducible] def Value : LiteralKind → Type
  | .id => ResourceId
  | .int => Int32
  | .bool => Bool
  | .string => String

def javaType : LiteralKind → String
  | .id => "int"
  | .int => "int"
  | .bool => "boolean"
  | .string => "String"

end LiteralKind

namespace Literal

/-- The general category `Cc`. -/
def isControl (c : Char) : Bool := c.toNat < 0x20 || (0x7f ≤ c.toNat && c.toNat < 0xa0)

def escape (c : Char) : List Char :=
  match c with
  | '"' => ['\\', '"']
  | '\\' => ['\\', '\\']
  | '\n' => ['\\', 'n']
  | '\r' => ['\\', 'r']
  | '\t' => ['\\', 't']
  | c => if isControl c then '\\' :: 'u' :: Text.fixedDigits 16 4 c.toNat else [c]

def string (value : String) : String :=
  String.ofList ('"' :: value.toList.flatMap escape ++ ['"'])

/-- The Java source text of a value. -/
def text : (kind : LiteralKind) → kind.Value → String
  | .id, value => ResourceId.text value
  | .int, value => Text.decimal (Int32.toInt value)
  | .bool, value => if value then "true" else "false"
  | .string, value => string value

end Literal

end JavaSource
