import JavaSource.File
import JavaSource.Proofs.WriterRun

/-!
# What a failing sink is left with

Writing hands pieces to a writer, one after another, and rendering joins them. So a sink accepts the
front of the joined text, all of it exactly when the writing succeeds, and is not called again once
it has failed. Nothing is asked of the pieces, so members of any producer may have made them.
-/
namespace JavaSource

variable {σ : Type}

/-- Whatever a sink answers, it has accepted a front of the texts that were handed on; the writing
succeeds exactly when that is all of them. Otherwise it ends with the first fault that the sink
answered with, a part of the texts is missing, and the answer was the last. -/
theorem Writer.accepted_prefix_join (sink : Sink σ) (start : σ) (pieces : List String) :
    let writer := pushAll sink { state := start } pieces
    sink.Transcript start writer.calls writer.state ∧
      writer.accepted <+: Text.bytes (String.join pieces) ∧
      (writer.finish = .ok () ↔ writer.accepted = Text.bytes (String.join pieces)) ∧
      ∀ fault, writer.finish = .error fault →
        writer.accepted ≠ Text.bytes (String.join pieces) ∧
        ∃ earlier last, writer.calls = earlier ++ [last] ∧
          (∀ call ∈ earlier, call.fault? = none) ∧ last.fault? = some fault := by
  intro writer
  have follows : writer.Follows sink start pieces :=
    follows_pushAll (follows_start sink start) pieces
  refine ⟨follows.transcript, follows.accepted_prefix, ?_, ?_⟩
  · rw [finish_eq_ok_iff]
    exact follows.healthy_iff
  · intro fault failed
    have faulty : writer.fault = some fault := (finish_eq_error_iff writer fault).mp failed
    have ends := follows.ends
    rw [faulty] at ends
    refine ⟨fun all => ?_, ends.exists_last⟩
    rw [follows.healthy_iff.mpr all] at faulty
    cases faulty

namespace File

theorem follows_send (file : File) (sink : Sink σ) (start : σ) :
    (file.send sink start).Follows sink start file.pieces :=
  Writer.follows_pushAll (Writer.follows_start sink start) file.pieces

theorem writeTo_eq_ok_iff (file : File) (sink : Sink σ) (start : σ) :
    file.writeTo sink start = .ok () ↔ (file.send sink start).fault = none := by
  unfold writeTo Writer.finish
  cases (file.send sink start).fault with
  | none => exact ⟨fun _ => rfl, fun _ => rfl⟩
  | some fault =>
    change Except.error (Error.incomplete fault) = Except.ok () ↔ _
    simp

theorem writeTo_eq_error_iff (file : File) (sink : Sink σ) (start : σ) (error : Error) :
    file.writeTo sink start = .error error ↔
      ∃ fault, error = .incomplete fault ∧ (file.send sink start).fault = some fault := by
  unfold writeTo Writer.finish
  cases (file.send sink start).fault with
  | none =>
    change Except.ok () = Except.error error ↔ _
    simp
  | some fault =>
    change Except.error (Error.incomplete fault) = Except.error error ↔ _
    simp [eq_comm]

/-- Whatever a sink answers, it has accepted a front of the rendered file; the file is written
exactly when that is all of it. Otherwise the error carries the first fault that the sink answered
with, a part of the file is missing, and the answer was the last. -/
theorem accepted_prefix_render (file : File) (sink : Sink σ) (start : σ) :
    let writer := file.send sink start
    sink.Transcript start writer.calls writer.state ∧
      writer.accepted <+: Text.bytes file.render ∧
      (file.writeTo sink start = .ok () ↔ writer.accepted = Text.bytes file.render) ∧
      ∀ error, file.writeTo sink start = .error error →
        writer.accepted ≠ Text.bytes file.render ∧
        ∃ earlier last fault, writer.calls = earlier ++ [last] ∧
          (∀ call ∈ earlier, call.fault? = none) ∧ last.fault? = some fault ∧
          error = .incomplete fault := by
  intro writer
  obtain ⟨transcript, front, whole, cut⟩ := Writer.accepted_prefix_join sink start file.pieces
  refine ⟨transcript, front, ?_, ?_⟩
  · rw [writeTo_eq_ok_iff, ← Writer.finish_eq_ok_iff]
    exact whole
  · intro error failed
    obtain ⟨fault, rfl, found⟩ := (file.writeTo_eq_error_iff sink start error).mp failed
    obtain ⟨missing, earlier, last, split, quiet, fatal⟩ :=
      cut fault ((Writer.finish_eq_error_iff _ fault).mpr found)
    exact ⟨missing, earlier, last, fault, split, quiet, fatal, rfl⟩

end File

end JavaSource
