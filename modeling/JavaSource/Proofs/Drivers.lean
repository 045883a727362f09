import JavaSource.Proofs.FaultPrefix
import JavaSource.Proofs.LimitedCalls

/-!
# Two ways to write a class as a file

A class can be written as a file of its own at once, or be made a file that is given the default
options with a finality and then written. Both hand the same pieces to a writer, so no sink can tell
them apart, whatever it answers and wherever it fails; and no device can that interrupts for ever.
-/
namespace JavaSource

/-- The file that is written when a class is written at once. -/
def classFile (root : ClassDef) (package : String) (finalFields : Bool) : File :=
  ({ package, root } : File).withOptions { finalFields }

/-- Neither the default options nor the finality bring a banner, a package or an indentation. -/
theorem pieces_classFile (root : ClassDef) (package : String) (finalFields : Bool) :
    (classFile root package finalFields).pieces =
      filePieces warningBanner package root { finalFields } := rfl

variable {σ : Type}

theorem sendClass_eq_send (root : ClassDef) (package : String) (finalFields : Bool) (sink : Sink σ)
    (start : σ) :
    sendClass root package finalFields sink start =
      (classFile root package finalFields).send sink start := by
  rw [sendClass, File.send, pieces_classFile]

theorem writeClass_iff_writeTo (root : ClassDef) (package : String) (finalFields : Bool)
    (sink : Sink σ) (start : σ) :
    writeClass root package finalFields sink start = true ↔
      (classFile root package finalFields).writeTo sink start = .ok () := by
  rw [writeClass, sendClass_eq_send, File.writeTo_eq_ok_iff, Writer.isHealthy,
    Option.isNone_iff_eq_none]

theorem writeTo_iff_accepted (file : File) (sink : Sink σ) (start : σ) :
    file.writeTo sink start = .ok () ↔ (file.send sink start).accepted = Text.bytes file.render :=
  (file.writeTo_eq_ok_iff sink start).trans (file.follows_send sink start).healthy_iff

/-- Writing a class at once and writing its file make the same calls to every sink, with the same
buffers and answers, and leave it in the same state with the same bytes. The one succeeds exactly if
the other does, and that is exactly if the sink has accepted the whole rendered file. A device that
may interrupt for ever is called by both in the same way too, for any number of calls; and for these
many calls a sink is called as it is without a limit. -/
theorem drivers_agree (root : ClassDef) (package : String) (finalFields : Bool) :
    let file := ({ package, root } : File).withOptions { finalFields }
    (∀ (σ : Type) (sink : Sink σ) (start : σ),
      (sendClass root package finalFields sink start).calls = (file.send sink start).calls ∧
      (sendClass root package finalFields sink start).accepted =
        (file.send sink start).accepted ∧
      (sendClass root package finalFields sink start).state = (file.send sink start).state ∧
      (writeClass root package finalFields sink start = true ↔
        file.writeTo sink start = .ok ()) ∧
      (file.writeTo sink start = .ok () ↔
        (file.send sink start).accepted = Text.bytes file.render)) ∧
    (∀ (σ : Type) (device : Device σ) (start : σ) (limit : Nat),
      (sendClass root package finalFields device.limited (start, limit)).calls =
        (file.send device.limited (start, limit)).calls ∧
      (sendClass root package finalFields device.limited (start, limit)).state =
        (file.send device.limited (start, limit)).state) ∧
    ∀ (σ : Type) (sink : Sink σ) (start : σ) (limit : Nat),
      (file.send sink.device.limited (start, limit)).calls.take limit =
        (file.send sink start).calls.take limit := by
  refine ⟨fun σ sink start => ?sinks, fun σ device start limit => ?devices,
    fun σ sink start limit => ?limit⟩
  case sinks =>
    have same := sendClass_eq_send root package finalFields sink start
    exact ⟨congrArg Writer.calls same, congrArg Writer.accepted same, congrArg Writer.state same,
      writeClass_iff_writeTo root package finalFields sink start,
      writeTo_iff_accepted _ sink start⟩
  case devices =>
    have same := sendClass_eq_send root package finalFields device.limited (start, limit)
    exact ⟨congrArg Writer.calls same, congrArg Writer.state same⟩
  case limit => exact (Writer.pushAll_limits sink start limit _).take_calls

end JavaSource
