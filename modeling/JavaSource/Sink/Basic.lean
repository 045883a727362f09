import JavaSource.Fault

/-!
# Byte sinks

A sink is offered a buffer and answers that it took some of it from the front, that it was
interrupted, or that it failed. Writing a whole buffer repeats the offer of what is left: an
interruption is met by the same offer, a failure ends the writing, and so does a sink that takes
nothing. Every offer is recorded together with its answer; what the sink accepted is a function of
that record.

A sink may interrupt often, but not for ever: its `patience` with a buffer bounds how many more
times it interrupts before it gives another answer. So writing a buffer always ends.
-/
namespace JavaSource

inductive Answer where
  | took (count : Nat)
  | interrupted
  | failed (fault : Fault)
  deriving DecidableEq, Repr

structure Sink (σ : Type) where
  write : σ → List UInt8 → Answer × σ
  patience : σ → List UInt8 → Nat
  took_le : ∀ state buffer count, (write state buffer).1 = .took count → count ≤ buffer.length
  patience_lt : ∀ state buffer, (write state buffer).1 = .interrupted →
    patience (write state buffer).2 buffer < patience state buffer

/-- One offer to a sink and its answer. -/
structure Call where
  offered : List UInt8
  answer : Answer
  deriving DecidableEq, Repr

namespace Call

/-- The bytes that changed hands. -/
def taken (call : Call) : List UInt8 :=
  match call.answer with
  | .took count => call.offered.take count
  | .interrupted => []
  | .failed _ => []

end Call

/-- What the sink accepted over a run of calls. -/
def accepted (calls : List Call) : List UInt8 := calls.flatMap Call.taken

theorem accepted_append (first second : List Call) :
    accepted (first ++ second) = accepted first ++ accepted second := by
  simp [accepted]

/-- How writing a buffer went: the calls it made, the fault that ended it, the sink's state. -/
structure Outcome (σ : Type) where
  calls : List Call := []
  fault : Option Fault := none
  state : σ

def Outcome.after {σ : Type} (call : Call) (outcome : Outcome σ) : Outcome σ :=
  { outcome with calls := call :: outcome.calls }

namespace Sink

variable {σ : Type}

/-- Offers the buffer until the sink has taken all of it or fails. -/
def writeAll (sink : Sink σ) (state : σ) (buffer : List UInt8) : Outcome σ :=
  if buffer.isEmpty then { state }
  else
    match asked : sink.write state buffer with
    | (.took 0, next) => ⟨[⟨buffer, .took 0⟩], some .nothingTaken, next⟩
    | (.took (count + 1), next) =>
      (sink.writeAll next (buffer.drop (count + 1))).after ⟨buffer, .took (count + 1)⟩
    | (.interrupted, next) => (sink.writeAll next buffer).after ⟨buffer, .interrupted⟩
    | (.failed fault, next) => ⟨[⟨buffer, .failed fault⟩], some fault, next⟩
termination_by (buffer.length, sink.patience state buffer)
decreasing_by
  · have bound := sink.took_le state buffer (count + 1) (by rw [asked])
    exact Prod.Lex.left _ _ (by simp; omega)
  · have less := sink.patience_lt state buffer (by rw [asked])
    rw [asked] at less
    exact Prod.Lex.right _ less

/-- The sink that takes all it is offered and keeps it. -/
def memory : Sink (List UInt8) where
  write := fun held buffer => (.took buffer.length, held ++ buffer)
  patience := fun _ _ => 0
  took_le := by
    rintro held buffer count ⟨⟩
    exact Nat.le_refl _
  patience_lt := nofun

theorem writeAll_memory (held buffer : List UInt8) :
    (memory.writeAll held buffer).fault = none ∧
      (memory.writeAll held buffer).state = held ++ buffer := by
  cases buffer with
  | nil => simp [writeAll]
  | cons byte rest =>
    rw [writeAll]
    -- One call takes the whole buffer, and then nothing is left to offer.
    simp [memory, Outcome.after, writeAll]

/-- After an interruption the next call is answered otherwise. -/
def NeverTwice (sink : Sink σ) : Prop :=
  ∀ state first second, (sink.write state first).1 = .interrupted →
    (sink.write (sink.write state first).2 second).1 ≠ .interrupted

end Sink

end JavaSource
