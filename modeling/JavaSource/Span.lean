/-!
# Spans

A span is a run of bytes in a text. A located value knows the span it was read from.
-/
namespace JavaSource

structure Span where
  offset : Nat
  length : Nat
  deriving DecidableEq, Repr

namespace Span

/-- The bytes from `start` up to `stop`; none if the stop comes first. -/
def ofRange (start stop : Nat) : Span := ⟨start, stop - start⟩

/-- The offset of the first byte after the span. -/
def stop (span : Span) : Nat := span.offset + span.length

/-- From the first byte of one span to the last of another. -/
def through (first last : Span) : Span := ofRange first.offset last.stop

def meets (first second : Span) : Bool := first.stop == second.offset

end Span

structure Located (α : Type) where
  value : α
  span : Span
  deriving DecidableEq, Repr

end JavaSource
