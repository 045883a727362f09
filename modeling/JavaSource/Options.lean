import JavaSource.Indent

/-!
# Options of a generated file
-/
namespace JavaSource

/-- How a file is emitted. A package given here takes the place of the file's own, and a banner
that of the warning at its top. -/
structure Options where
  package : Option String := none
  finalFields : Bool := true
  indent : Indent := .java
  banner : Option String := none
  deriving DecidableEq, Repr

end JavaSource
