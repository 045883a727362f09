import JavaSource.Proofs.Transcript
import JavaSource.Writer

/-!
# Runs of a writer

A writer that was handed texts one after another has made its sink take all of them, or all before
the text that failed and a proper front of that one. Nothing is offered after a fault.
-/
namespace JavaSource.Writer

variable {σ : Type}

/-- How a fault cuts the texts: those before the one that failed were taken whole, and of that
one a proper front was taken, which counts as nothing written. -/
def Cut (pieces : List String) (writer : Writer σ) : Prop :=
  ∃ before piece after taken, pieces = before ++ piece :: after ∧
    writer.bytesWritten = (String.join before).utf8ByteSize ∧
    writer.accepted = Text.bytes (String.join before) ++ taken ∧
    taken <+: Text.bytes piece ∧ taken ≠ Text.bytes piece

/-- What is true of a writer that began at a state of the sink and was handed these texts. -/
structure Follows (sink : Sink σ) (start : σ) (pieces : List String) (writer : Writer σ) :
    Prop where
  transcript : sink.Transcript start writer.calls writer.state
  ends : EndsWith writer.calls writer.fault
  whole : writer.fault = none → writer.accepted = Text.bytes (String.join pieces) ∧
    writer.bytesWritten = (String.join pieces).utf8ByteSize
  cut : writer.fault ≠ none → writer.Cut pieces

theorem follows_start (sink : Sink σ) (start : σ) : Follows sink start [] { state := start } :=
  ⟨.silent start, .nil, fun _ => ⟨rfl, rfl⟩, fun fault => absurd rfl fault⟩

theorem finish_eq_ok_iff (writer : Writer σ) : writer.finish = .ok () ↔ writer.fault = none := by
  unfold finish
  cases writer.fault <;> simp

theorem finish_eq_error_iff (writer : Writer σ) (fault : Fault) :
    writer.finish = .error fault ↔ writer.fault = some fault := by
  unfold finish
  cases writer.fault <;> simp

/-- A writer with a fault drops every text. -/
theorem push_of_fault (sink : Sink σ) (writer : Writer σ) (text : String)
    (fault : writer.fault ≠ none) : writer.push sink text = writer := by
  have poisoned : writer.fault.isSome = true := Option.isSome_iff_ne_none.mpr fault
  simp [push, poisoned]

theorem push_empty (sink : Sink σ) (writer : Writer σ) : writer.push sink "" = writer := by
  simp [push]

theorem push_of_healthy (sink : Sink σ) (writer : Writer σ) (text : String)
    (healthy : writer.fault = none) (nonempty : text ≠ "") :
    writer.push sink text =
      let outcome := sink.writeAll writer.state (Text.bytes text)
      { state := outcome.state
        calls := writer.calls ++ outcome.calls
        fault := outcome.fault
        bytesWritten :=
          if outcome.fault.isNone then writer.bytesWritten + text.utf8ByteSize
          else writer.bytesWritten } := by
  simp [push, healthy, nonempty]

theorem accepted_append (writer : Writer σ) (later : List Call) :
    JavaSource.accepted (writer.calls ++ later) = writer.accepted ++ JavaSource.accepted later :=
  JavaSource.accepted_append writer.calls later

/-- A healthy writer that a text makes fail does not count it, and its sink has taken a front of it
and not all. -/
theorem push_fails {sink : Sink σ} {writer : Writer σ} {text : String}
    (healthy : writer.fault = none) (fails : (writer.push sink text).fault ≠ none) :
    (writer.push sink text).bytesWritten = writer.bytesWritten ∧
      ∃ taken, (writer.push sink text).accepted = writer.accepted ++ taken ∧
        taken <+: Text.bytes text ∧ taken ≠ Text.bytes text := by
  by_cases empty : text = ""
  · subst empty
    rw [push_empty] at fails
    exact absurd healthy fails
  rw [push_of_healthy sink writer text healthy empty] at fails ⊢
  have writes := sink.writeAll_writes writer.state (Text.bytes text)
  generalize sink.writeAll writer.state (Text.bytes text) = outcome at writes fails ⊢
  refine ⟨if_neg (by simpa using fails), JavaSource.accepted outcome.calls,
    accepted_append writer outcome.calls, writes.taken, fun all => ?_⟩
  exact fails (writes.whole_iff.mpr all)

/-- Texts that come after the cut are dropped, so they may be added to it. -/
theorem Cut.append {pieces : List String} {writer : Writer σ} (cut : writer.Cut pieces)
    (more : List String) : writer.Cut (pieces ++ more) := by
  obtain ⟨before, piece, after, taken, rfl, counted, accepted, front, proper⟩ := cut
  exact ⟨before, piece, after ++ more, taken, by simp, counted, accepted, front, proper⟩

theorem follows_push {sink : Sink σ} {start : σ} {pieces : List String} {writer : Writer σ}
    (follows : writer.Follows sink start pieces) (text : String) :
    (writer.push sink text).Follows sink start (pieces ++ [text]) := by
  by_cases faulty : writer.fault ≠ none
  -- The text is dropped, and the cut stays where it is.
  · rw [push_of_fault sink writer text faulty]
    exact ⟨follows.transcript, follows.ends, fun healthy => absurd healthy faulty,
      fun _ => (follows.cut faulty).append [text]⟩
  have healthy : writer.fault = none := by simpa using faulty
  obtain ⟨accepted, counted⟩ := follows.whole healthy
  by_cases empty : text = ""
  · subst empty
    rw [push_empty]
    have same : String.join (pieces ++ [""]) = String.join pieces := by simp
    exact ⟨follows.transcript, follows.ends, fun _ => by rw [same]; exact ⟨accepted, counted⟩,
      fun fault => absurd healthy fault⟩
  have fails := @push_fails σ sink writer text healthy
  rw [push_of_healthy sink writer text healthy empty] at fails ⊢
  -- The writing of this text is all that happens, and it decides whether the writer stays healthy.
  have writes := sink.writeAll_writes writer.state (Text.bytes text)
  generalize sink.writeAll writer.state (Text.bytes text) = outcome at writes fails ⊢
  have ends := follows.ends
  rw [healthy] at ends
  refine ⟨follows.transcript.append writes.transcript, ends.append writes.ends, ?_, ?_⟩
  · intro whole
    have all := writes.whole_iff.mp whole
    constructor
    · change JavaSource.accepted (writer.calls ++ outcome.calls) = _
      rw [accepted_append, accepted, all]
      simp
    · change (if outcome.fault.isNone then _ else _) = _
      have none : outcome.fault = none := whole
      simp [none, counted, String.utf8ByteSize_append]
  · intro fault
    obtain ⟨kept, taken, took, part, proper⟩ := fails fault
    exact ⟨pieces, text, [], taken, rfl, kept.trans counted, took.trans (by rw [accepted]), part,
      proper⟩

theorem follows_pushAll {sink : Sink σ} {start : σ} {pieces : List String} {writer : Writer σ}
    (follows : writer.Follows sink start pieces) (more : List String) :
    (writer.pushAll sink more).Follows sink start (pieces ++ more) := by
  induction more generalizing pieces writer with
  | nil => simpa [pushAll] using follows
  | cons text rest ih => simpa [pushAll] using ih (follows_push follows text)

/-! ### A writer handed a whole text -/

/-- Before a cut the sink has taken a front of the whole text, and not all of it. -/
theorem Cut.proper {pieces : List String} {writer : Writer σ} (cut : writer.Cut pieces) :
    writer.accepted <+: Text.bytes (String.join pieces) ∧
      writer.accepted ≠ Text.bytes (String.join pieces) := by
  obtain ⟨before, piece, after, taken, rfl, -, accepted, front, proper⟩ := cut
  obtain ⟨rest, split⟩ := front
  have text : Text.bytes (String.join (before ++ piece :: after)) =
      writer.accepted ++ (rest ++ Text.bytes (String.join after)) := by
    simp [accepted, ← split]
  refine ⟨⟨_, text.symm⟩, fun whole => ?_⟩
  rw [whole, List.self_eq_append_right, List.append_eq_nil_iff] at text
  exact proper (by rw [← split, text.1, List.append_nil])

namespace Follows

variable {sink : Sink σ} {start : σ} {pieces : List String} {writer : Writer σ}

theorem accepted_prefix (follows : writer.Follows sink start pieces) :
    writer.accepted <+: Text.bytes (String.join pieces) := by
  by_cases healthy : writer.fault = none
  · exact ⟨[], by rw [List.append_nil, (follows.whole healthy).1]⟩
  · exact (follows.cut healthy).proper.1

theorem healthy_iff (follows : writer.Follows sink start pieces) :
    writer.fault = none ↔ writer.accepted = Text.bytes (String.join pieces) := by
  refine ⟨fun healthy => (follows.whole healthy).1, fun all => ?_⟩
  apply Classical.byContradiction
  intro fault
  exact (follows.cut fault).proper.2 all

end Follows

end JavaSource.Writer
