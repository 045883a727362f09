/-!
# Indentation units

The unit is the text that one more level of nesting adds to the margin. Widths of two, four and
eight spaces are supported; any other width is carried but shown as two spaces.
-/
namespace JavaSource

inductive Indent where
  | spaces (width : UInt8)
  | tab
  deriving DecidableEq, Repr

namespace Indent

def java : Indent := .spaces 2

def wide : Indent := .spaces 4

instance : Inhabited Indent := ⟨java⟩

def unit : Indent → String
  | .tab => "\t"
  | .spaces width =>
    if width = 4 then "    " else if width = 8 then "        " else "  "

def isSupported : Indent → Bool
  | .tab => true
  | .spaces width => width == 2 || width == 4 || width == 8

/-- A supported width is shown as configured. -/
theorem unit_of_isSupported (width : UInt8) (supported : (spaces width).isSupported = true) :
    (spaces width).unit = String.ofList (List.replicate width.toNat ' ') := by
  simp only [isSupported, Bool.or_eq_true, beq_iff_eq] at supported
  rcases supported with (rfl | rfl) | rfl <;> rfl

end Indent

end JavaSource
