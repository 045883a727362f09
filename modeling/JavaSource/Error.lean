import JavaSource.Decimal.Positional
import JavaSource.Fault
import JavaSource.Span
import JavaSource.Text.Quoted
import JavaSource.Width

/-!
# Errors

What can go wrong with options and files, each cause with the message it is reported by. An error
in an options text knows the text, its file name and the bytes it is about.
-/
namespace JavaSource

structure Source where
  text : String
  filename : String
  deriving DecidableEq, Repr

/-- The value that stands where another kind of value is expected. -/
inductive Found where
  | integer (value : Int)
  | float (value : Decimal.Binary64)
  | boolean (value : Bool)
  | text (value : String)
  | sequence
  | map
  deriving DecidableEq, Repr

inductive Expected where
  | text
  | boolean
  | byte
  deriving DecidableEq, Repr

/-- Why a document of options does not have the shape that options have. -/
inductive SchemaFault where
  | unknownField (key : String)
  | wrongType (found : Found) (expected : Expected)
  | outOfRange (value : Int)
  | integerOverflow
  | floatOverflow
  | unknownVariant (name : String)
  | missingWidth
  | notStringOrTable
  | noEntry
  | manyEntries
  | tableNotEmpty
  | arrayNotEmpty
  | notTable (found : String)
  deriving DecidableEq, Repr

/-- Integers that need more than 64 bits show how many they need. -/
def Found.message : Found → String
  | .integer value =>
    let wide :=
      if Width.fits 64 value then ""
      else if Width.isSigned 128 value then " as i128"
      else " as u128"
    "integer `" ++ Text.decimal value ++ "`" ++ wide
  | .float value => "floating point `" ++ value.text ++ "`"
  | .boolean value => "boolean `" ++ (if value then "true" else "false") ++ "`"
  | .text value => "string " ++ Text.quoted value
  | .sequence => "sequence"
  | .map => "map"

def Expected.message : Expected → String
  | .text => "a string"
  | .boolean => "a boolean"
  | .byte => "u8"

def SchemaFault.message : SchemaFault → String
  | .unknownField key =>
    "unknown field `" ++ key ++
      "`, expected one of `package`, `final-fields`, `indent`, `banner`"
  | .wrongType found expected =>
    "invalid type: " ++ found.message ++ ", expected " ++ expected.message
  | .outOfRange value => "invalid value: integer `" ++ Text.decimal value ++ "`, expected u8"
  | .integerOverflow => "integer number overflowed"
  | .floatOverflow => "floating-point number overflowed"
  | .unknownVariant name => "unknown variant `" ++ name ++ "`, expected `spaces` or `tab`"
  | .missingWidth => "invalid type: unit variant, expected newtype variant"
  | .notStringOrTable => "wanted string or table"
  | .noEntry => "wanted exactly 1 element, found 0 elements"
  | .manyEntries => "wanted exactly 1 element, more than 1 element"
  | .tableNotEmpty => "expected empty table"
  | .arrayNotEmpty => "expected empty array"
  | .notTable found => "expected table, found " ++ found

/-- Why an options text cannot be read: it is no document at all, or one of the wrong shape. -/
inductive ParseFault where
  | malformed
  | schema (cause : SchemaFault) (span : Span)
  deriving DecidableEq, Repr

inductive Error where
  | unreadable (path : String) (kind : FaultKind)
  | incomplete (fault : Fault)
  | parse (source : Source) (fault : ParseFault)
  | validation (source : Source) (message : String) (span : Span)
  deriving DecidableEq, Repr

/-- A remark on a run of bytes of the source. -/
structure Label where
  text : String
  span : Span
  deriving DecidableEq, Repr

namespace Error

def message : Error → String
  | .unreadable path _ => "failed to read '" ++ path ++ "'"
  | .incomplete _ => "failed to write generated Java source"
  | .parse _ _ => "failed to parse javagen options"
  | .validation _ message _ => message

def code? : Error → Option String
  | .unreadable _ _ => none
  | .incomplete _ => some "javagen::write_error"
  | .parse _ _ => some "javagen::parse_error"
  | .validation _ _ _ => some "javagen::validation_error"

def help? : Error → Option String
  | .incomplete _ => some "the output is incomplete; render the file again into a fresh sink"
  | _ => none

def span? : Error → Option Span
  | .parse _ (.schema _ span) => some span
  | .validation _ _ span => some span
  | _ => none

def labels : Error → List Label
  | .parse _ (.schema _ span) => [⟨"parse error here", span⟩]
  | .validation _ message span => [⟨message, span⟩]
  | _ => []

end Error

end JavaSource
