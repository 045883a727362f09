/-!
# Integers of a width

Which integers a number type of so many bits holds, as a signed or as an unsigned number.
-/
namespace JavaSource.Width

def isSigned (bits : Nat) (value : Int) : Bool :=
  -(Nat.pow 2 (bits - 1) : Int) ≤ value && value < (Nat.pow 2 (bits - 1) : Int)

def isUnsigned (bits : Nat) (value : Int) : Bool := 0 ≤ value && value < (Nat.pow 2 bits : Int)

/-- Whether a signed or an unsigned type of this width holds the integer. -/
def fits (bits : Nat) (value : Int) : Bool := isSigned bits value || isUnsigned bits value

end JavaSource.Width
