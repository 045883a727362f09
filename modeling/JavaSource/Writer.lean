import JavaSource.Member.Pieces
import JavaSource.Sink.Basic
import JavaSource.Text.Bytes

/-!
# Writers

A writer hands texts to a sink, each in one write of all its bytes. The first fault is kept and
every later text is dropped without a call, so that a tree can be written piece by piece and asked
about at the end. Only texts that were taken whole count as written.
-/
namespace JavaSource

structure Writer (σ : Type) where
  state : σ
  calls : List Call := []
  fault : Option Fault := none
  bytesWritten : Nat := 0

namespace Writer

variable {σ : Type}

def isHealthy (writer : Writer σ) : Bool := writer.fault.isNone

/-- The empty text is not offered to the sink. -/
def push (sink : Sink σ) (writer : Writer σ) (text : String) : Writer σ :=
  if writer.fault.isSome || text.isEmpty then writer
  else
    let outcome := sink.writeAll writer.state (Text.bytes text)
    { state := outcome.state
      calls := writer.calls ++ outcome.calls
      fault := outcome.fault
      bytesWritten :=
        if outcome.fault.isNone then writer.bytesWritten + text.utf8ByteSize
        else writer.bytesWritten }

def pushAll (sink : Sink σ) (writer : Writer σ) (pieces : List String) : Writer σ :=
  pieces.foldl (push sink) writer

theorem pushAll_append (sink : Sink σ) (writer : Writer σ) (first second : List String) :
    writer.pushAll sink (first ++ second) = (writer.pushAll sink first).pushAll sink second :=
  List.foldl_append

/-! ### Writing to memory -/

theorem push_memory (writer : Writer (List UInt8)) (healthy : writer.fault = none)
    (text : String) :
    (writer.push .memory text).fault = none ∧
      (writer.push .memory text).state = writer.state ++ Text.bytes text := by
  by_cases empty : text = ""
  · subst empty
    simp [push, healthy]
  · have written := Sink.writeAll_memory writer.state (Text.bytes text)
    simpa [push, healthy, empty] using written

/-- A memory keeps the text whole, whatever pieces it comes in. -/
theorem pushAll_memory (writer : Writer (List UInt8)) (healthy : writer.fault = none)
    (pieces : List String) :
    (writer.pushAll .memory pieces).fault = none ∧
      (writer.pushAll .memory pieces).state =
        writer.state ++ Text.bytes (String.join pieces) := by
  induction pieces generalizing writer with
  | nil => simp [pushAll, healthy]
  | cons text rest ih =>
    obtain ⟨still, held⟩ := push_memory writer healthy text
    obtain ⟨sound, all⟩ := ih (writer.push .memory text) still
    refine ⟨sound, all.trans ?_⟩
    rw [held, String.join_cons, Text.bytes_append, List.append_assoc]

/-! ### What a writer reports -/

/-- The bytes that the sink took. -/
def accepted (writer : Writer σ) : List UInt8 := JavaSource.accepted writer.calls

def finish (writer : Writer σ) : Except Fault Unit :=
  match writer.fault with
  | none => .ok ()
  | some fault => .error fault

/-- What a writer can be asked to write. -/
inductive Step where
  | text (content : String)
  | newline
  | line (margin content : String)
  | doc (margin : String) (content : Doc)
  | member (margin : String) (context : Context) (content : Member)

def Step.pieces : Step → List String
  | .text content => [content]
  | .newline => ["\n"]
  | .line margin content => Doc.linePieces margin content
  | .doc margin content => content.pieces margin
  | .member margin context content => content.pieces context margin

def run (sink : Sink σ) (writer : Writer σ) (step : Step) : Writer σ :=
  writer.pushAll sink step.pieces

/-- A member that is written to memory leaves there the bytes of its rendered text. -/
theorem state_run_member (member : Member) (margin : String) (context : Context) :
    (run .memory { state := [] } (.member margin context member)).state =
      Text.bytes (member.render margin context) := by
  obtain ⟨-, held⟩ := pushAll_memory { state := [] } rfl (member.pieces context margin)
  exact held

end Writer

end JavaSource
