import JavaSource.Options
import JavaSource.Options.Banner
import JavaSource.Options.Schema
import JavaSource.Text.Blank
import JavaSource.Text.Bytes
import JavaSource.Toml.Document

/-!
# Reading options

Options are read from a TOML document in three steps: the text has to be a document, the document
has to have the shape of options, and the values have to be valid. Validation goes through package,
indent and banner in this order and stops at the first that is not valid. Package and banner are
kept without the blanks around them.
-/
namespace JavaSource.Options

inductive Violation where
  | emptyPackage
  | unsupportedIndent
  | notBlockComment
  deriving DecidableEq, Repr

def Violation.message : Violation → String
  | .emptyPackage => "package must not be empty"
  | .unsupportedIndent => "unsupported indent width, use 2, 4 or 8 spaces or \"tab\""
  | .notBlockComment => "banner must be a single /* ... */ block comment"

def validPackage (package : String) : Except Violation String :=
  let name := Text.trim package
  if name.isEmpty then .error .emptyPackage else .ok name

def validIndent (indent : Indent) : Except Violation Indent :=
  if indent.isSupported then .ok indent else .error .unsupportedIndent

def validBanner (banner : String) : Except Violation String :=
  let text := Text.trim banner
  if isBlockComment text then .ok text else .error .notBlockComment

/-- Checks a value where there is one, and puts a violation at its span. -/
def check {α : Type} (valid : α → Except Violation α) :
    Option (Located α) → Except (Located Violation) (Option α)
  | none => .ok none
  | some given =>
    match valid given.value with
    | .ok value => .ok (some value)
    | .error violation => .error ⟨violation, given.span⟩

def Draft.validate (draft : Draft) : Except (Located Violation) Options := do
  let package ← check validPackage draft.package
  let indent ← check validIndent draft.indent
  let banner ← check validBanner draft.banner
  return { package, finalFields := draft.finalFields, indent := indent.getD .java, banner }

/-- The options that a table of entries gives; the source is what errors refer to. -/
def ofTable (source : Source) (table : Toml.Table) : Except Error Options :=
  match Draft.ofTable table with
  | .error mismatch => .error (.parse source (.schema mismatch.cause mismatch.span))
  | .ok draft =>
    match draft.validate with
    | .error violation => .error (.validation source violation.value.message violation.span)
    | .ok options => .ok options

def read (source : Source) : Except Error Options :=
  match Toml.read? source.text with
  | none => .error (.parse source .malformed)
  | some table => ofTable source table

/-- The file name of a text that has none of its own. -/
def defaultFilename : String := "javagen.toml"

def parse (text : String) : Except Error Options := read ⟨text, defaultFilename⟩

/-- What stands at a path. -/
inductive Stored where
  | bytes (content : List UInt8)
  | directory
  | nothing
  deriving DecidableEq, Repr

/-- Reads the options in a file. A directory cannot be read, and the bytes have to be UTF-8. -/
def load (path : String) : Stored → Except Error Options
  | .nothing => .error (.unreadable path .notFound)
  | .directory => .error (.unreadable path .isADirectory)
  | .bytes content =>
    match Text.ofBytes? content with
    | none => .error (.unreadable path .invalidData)
    | some text => read ⟨text, path⟩

end JavaSource.Options
