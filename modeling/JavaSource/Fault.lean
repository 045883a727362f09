/-!
# Faults of sources and destinations

What an operation on a file or an output stream reports when it fails: a kind and a text.
-/
namespace JavaSource

/-- The kinds that are told apart, and all other kinds that a destination may have, by their
names. -/
inductive FaultKind where
  | notFound
  | isADirectory
  | invalidData
  | brokenPipe
  | storageFull
  | permissionDenied
  | writeZero
  | other
  | unlisted (name : String)
  deriving DecidableEq, Repr

structure Fault where
  kind : FaultKind
  message : String
  deriving DecidableEq, Repr

/-- The fault of a destination that takes none of the bytes it is offered. -/
def Fault.nothingTaken : Fault := ⟨.writeZero, "failed to write whole buffer"⟩

end JavaSource
