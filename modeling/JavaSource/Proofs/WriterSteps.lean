import JavaSource.Proofs.WriterRun
import JavaSource.Sink.Budget
import Mathlib

/-!
# A writer step by step

A step of a writer is a number of texts handed over one after another, so what is true after every
text is true after every step, and between the texts of a step. As long as the writer is healthy
its count and its sink agree on all the text so far. The text that fails first is taken up to some
byte and not counted; from then on every step, be it a whole tree, leaves the writer as it is.
-/
namespace JavaSource.Writer

variable {σ : Type}

/-- The texts that steps hand to the writer, in order. -/
def issued (steps : List Step) : List String := steps.flatMap Step.pieces

/-- The writer after one step after another. -/
def runAll (sink : Sink σ) (writer : Writer σ) (steps : List Step) : Writer σ :=
  steps.foldl (run sink) writer

theorem runAll_eq_pushAll (sink : Sink σ) (writer : Writer σ) (steps : List Step) :
    writer.runAll sink steps = writer.pushAll sink (issued steps) := by
  induction steps generalizing writer with
  | nil => rfl
  | cons step rest ih =>
    change (writer.run sink step).runAll sink rest = _
    rw [ih, run, ← pushAll_append]
    rfl

/-! ### After a fault -/

theorem pushAll_of_fault (sink : Sink σ) (writer : Writer σ) (pieces : List String)
    (fault : writer.fault ≠ none) : writer.pushAll sink pieces = writer := by
  induction pieces with
  | nil => rfl
  | cons text rest ih =>
    change (writer.push sink text).pushAll sink rest = writer
    rw [push_of_fault sink writer text fault, ih]

theorem runAll_of_fault (sink : Sink σ) (writer : Writer σ) (steps : List Step)
    (fault : writer.fault ≠ none) : writer.runAll sink steps = writer := by
  rw [runAll_eq_pushAll, pushAll_of_fault sink writer _ fault]

/-- A writer that ends healthy was healthy before every step. -/
theorem healthy_of_prefix (sink : Sink σ) (writer : Writer σ) {earlier steps : List Step}
    (front : earlier <+: steps) (healthy : (writer.runAll sink steps).fault = none) :
    (writer.runAll sink earlier).fault = none := by
  obtain ⟨later, rfl⟩ := front
  apply Classical.byContradiction
  intro fault
  have stays := runAll_of_fault sink _ later fault
  rw [runAll, List.foldl_append] at healthy
  change ((writer.runAll sink earlier).runAll sink later).fault = none at healthy
  rw [stays] at healthy
  exact fault healthy

/-! ### The text that fails first -/

/-- Where a run of texts ends with a fault, one of them is the first to fail, and its fault is the
one that is kept. -/
theorem exists_first_fault {sink : Sink σ} {writer : Writer σ} {pieces : List String}
    (healthy : writer.fault = none) (fails : (writer.pushAll sink pieces).fault ≠ none) :
    ∃ before piece after, pieces = before ++ piece :: after ∧
      (writer.pushAll sink before).fault = none ∧
      ((writer.pushAll sink before).push sink piece).fault ≠ none ∧
      writer.pushAll sink pieces = (writer.pushAll sink before).push sink piece := by
  induction pieces generalizing writer with
  | nil => exact absurd healthy fails
  | cons text rest ih =>
    change ((writer.push sink text).pushAll sink rest).fault ≠ none at fails
    by_cases here : (writer.push sink text).fault = none
    · -- This text was written, so a later one is the first to fail.
      obtain ⟨before, piece, after, rfl, still, fault, whole⟩ := ih here fails
      exact ⟨text :: before, piece, after, rfl, still, fault, whole⟩
    · exact ⟨[], text, rest, rfl, healthy, here, pushAll_of_fault sink _ rest here⟩

/-- What a writer and its sink hold once these texts were handed over: all of them if the writer is
healthy, and else those before the first that failed, with a proper front of that one. -/
structure Accounts (sink : Sink σ) (start : σ) (pushed : List String) (writer : Writer σ) :
    Prop where
  transcript : sink.Transcript start writer.calls writer.state
  whole : writer.fault = none → writer.accepted = Text.bytes (String.join pushed) ∧
    writer.bytesWritten = (String.join pushed).utf8ByteSize
  cut : ∀ fault, writer.fault = some fault → ∃ before piece after taken,
    pushed = before ++ piece :: after ∧
    (pushAll sink { state := start } before).fault = none ∧
    (pushAll sink { state := start } (before ++ [piece])).fault = some fault ∧
    writer.bytesWritten = (String.join before).utf8ByteSize ∧
    writer.accepted = Text.bytes (String.join before) ++ taken ∧
    taken <+: Text.bytes piece ∧ taken ≠ Text.bytes piece ∧
    writer.bytesWritten ≤ writer.accepted.length ∧
    writer.accepted.length < writer.bytesWritten + piece.utf8ByteSize

/-- Nothing is asked of the texts, so it does not matter which member of which producer they are
from. -/
theorem accounts_pushAll (sink : Sink σ) (start : σ) (pushed : List String) :
    (pushAll sink { state := start } pushed).Accounts sink start pushed := by
  have follows := follows_pushAll (follows_start sink start) pushed
  refine ⟨follows.transcript, follows.whole, fun fault found => ?_⟩
  have fails : (pushAll sink { state := start } pushed).fault ≠ none := by
    rw [found]
    exact Option.some_ne_none _
  obtain ⟨before, piece, after, rfl, healthy, first, same⟩ := exists_first_fault rfl fails
  have front := follows_pushAll (follows_start sink start) before
  obtain ⟨accepted, counted⟩ := front.whole healthy
  obtain ⟨kept, taken, took, part, proper⟩ := push_fails healthy first
  have last : pushAll sink { state := start } (before ++ [piece]) =
      (pushAll sink { state := start } before).push sink piece :=
    pushAll_append sink _ before [piece]
  rw [same] at found ⊢
  rw [accepted, List.nil_append] at took
  rw [counted, List.nil_append] at kept
  -- A proper front of the text has fewer bytes than the text.
  have shorter : taken.length < piece.utf8ByteSize := by
    rw [← Text.length_bytes]
    refine Nat.lt_of_le_of_ne part.length_le fun equal => proper (part.eq_of_length equal)
  refine ⟨before, piece, after, taken, rfl, healthy, by rw [last, found], kept, took, part, proper,
    ?_, ?_⟩
  · rw [kept, took, List.length_append, Text.length_bytes]
    exact Nat.le_add_right _ _
  · rw [kept, took, List.length_append, Text.length_bytes]
    exact Nat.add_lt_add_left shorter _

/-- At every point of a run of steps, also between the texts of one step, the writer accounts for
what it was handed. After a fault all further steps leave everything as it is, the calls to the sink
included, and finishing returns the fault. It returns none exactly when every step left the writer
healthy. -/
theorem runAll_accounts (sink : Sink σ) (start : σ) (steps : List Step) :
    let writer := runAll sink { state := start } steps
    writer = pushAll sink { state := start } (issued steps) ∧
      (∀ pushed, pushed <+: issued steps →
        (pushAll sink { state := start } pushed).Accounts sink start pushed) ∧
      (∀ fault, writer.fault = some fault →
        writer.finish = .error fault ∧ ∀ later, writer.runAll sink later = writer) ∧
      (writer.finish = .ok () ↔
        ∀ earlier, earlier <+: steps → (runAll sink { state := start } earlier).fault = none) := by
  intro writer
  refine ⟨runAll_eq_pushAll sink _ steps, fun pushed _ => accounts_pushAll sink start pushed,
    fun fault found => ⟨?_, fun later => ?_⟩, ?_⟩
  · rw [finish, found]
  · exact runAll_of_fault sink writer later (by rw [found]; exact Option.some_ne_none _)
  · rw [finish_eq_ok_iff]
    constructor
    · intro healthy earlier front
      exact healthy_of_prefix sink _ front healthy
    · intro healthy
      exact healthy steps (List.prefix_refl steps)

/-- A writer whose second text does not fit what is left of the budget. -/
def overBudget : Writer Budget.State :=
  runAll ({} : Budget).sink { state := ⟨some 4, 0⟩ } [.text "abc", .text "defg"]

/-- A later text is dropped even though it would fit. -/
theorem runAll_overBudget :
    overBudget.fault = some ⟨.brokenPipe, "sink closed"⟩ ∧
      overBudget.finish = .error ⟨.brokenPipe, "sink closed"⟩ ∧
      overBudget.runAll ({} : Budget).sink [.text "h"] = overBudget ∧
      overBudget.bytesWritten = 3 ∧ overBudget.accepted = Text.bytes "abc" := by
  have fault : overBudget.fault = some ⟨.brokenPipe, "sink closed"⟩ := by cbv
  obtain ⟨-, -, stays, -⟩ :=
    runAll_accounts ({} : Budget).sink ⟨some 4, 0⟩ [.text "abc", .text "defg"]
  obtain ⟨failed, same⟩ := stays _ fault
  exact ⟨fault, failed, same [.text "h"], by cbv, by cbv⟩

end JavaSource.Writer
