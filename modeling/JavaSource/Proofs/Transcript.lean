import JavaSource.Sink.Basic

/-!
# Transcripts of a sink

The calls that writing a buffer makes are the answers that the sink gives, one after another. The
first answer that ends the writing is a failure or a refusal to take anything; no call follows it,
and until then the sink has taken the front of the buffer without a gap.
-/
namespace JavaSource

/-- The fault that a call ends the writing with, if it does. -/
def Call.fault? (call : Call) : Option Fault :=
  match call.answer with
  | .took 0 => some .nothingTaken
  | .took (_ + 1) => none
  | .interrupted => none
  | .failed fault => some fault

/-- Calls that were made and answered one after another, from one state of the sink to another. -/
inductive Sink.Transcript {σ : Type} (sink : Sink σ) : σ → List Call → σ → Prop where
  | silent (state : σ) : Transcript sink state [] state
  | asked {state final : σ} {buffer : List UInt8} {calls : List Call} (nonempty : buffer ≠ [])
      (rest : Transcript sink (sink.write state buffer).2 calls final) :
      Transcript sink state (⟨buffer, (sink.write state buffer).1⟩ :: calls) final

namespace Sink.Transcript

variable {σ : Type} {sink : Sink σ}

theorem append {first second third : σ} {earlier later : List Call}
    (front : sink.Transcript first earlier second) (back : sink.Transcript second later third) :
    sink.Transcript first (earlier ++ later) third := by
  induction front with
  | silent => exact back
  | asked nonempty _ ih => exact .asked nonempty (ih back)

theorem asked_eq {state next final : σ} {buffer : List UInt8} {answer : Answer} {calls : List Call}
    (nonempty : buffer ≠ []) (given : sink.write state buffer = (answer, next))
    (rest : sink.Transcript next calls final) :
    sink.Transcript state (⟨buffer, answer⟩ :: calls) final := by
  have step : sink.Transcript state (⟨buffer, (sink.write state buffer).1⟩ :: calls) final :=
    .asked nonempty (by rw [given]; exact rest)
  rwa [given] at step

end Sink.Transcript

/-- The first fault among the calls, with no call after it. -/
structure EndsWith (calls : List Call) (fault? : Option Fault) : Prop where
  first : calls.findSome? Call.fault? = fault?
  last : ∀ call ∈ calls.dropLast, call.fault? = none

namespace EndsWith

theorem nil : EndsWith [] none := ⟨rfl, by simp⟩

theorem single {call : Call} {fault? : Option Fault} (same : call.fault? = fault?) :
    EndsWith [call] fault? :=
  ⟨by cases fault? <;> simp [same], by simp⟩

theorem all_none {calls : List Call} (ends : EndsWith calls none) :
    ∀ call ∈ calls, call.fault? = none :=
  List.findSome?_eq_none_iff.mp ends.first

theorem append {earlier later : List Call} {fault? : Option Fault}
    (whole : EndsWith earlier none) (ends : EndsWith later fault?) :
    EndsWith (earlier ++ later) fault? := by
  refine ⟨by rw [List.findSome?_append, whole.first, ends.first, Option.none_or], ?_⟩
  intro call member
  cases later with
  | nil => exact whole.last call (by simpa using member)
  | cons first rest =>
    rw [List.dropLast_append_cons, List.mem_append] at member
    rcases member with early | late
    · exact whole.all_none call early
    · exact ends.last call late

/-- The last call of a writing that failed is the one that made it fail. -/
theorem exists_last {calls : List Call} {fault : Fault} (ends : EndsWith calls (some fault)) :
    ∃ earlier last, calls = earlier ++ [last] ∧ (∀ call ∈ earlier, call.fault? = none) ∧
      last.fault? = some fault := by
  have nonempty : calls ≠ [] := by
    rintro rfl
    cases ends.first
  have split := List.dropLast_concat_getLast nonempty
  refine ⟨calls.dropLast, calls.getLast nonempty, split.symm, ends.last, ?_⟩
  have first := ends.first
  rw [← split, List.findSome?_append, List.findSome?_eq_none_iff.mpr ends.last] at first
  cases found : (calls.getLast nonempty).fault? <;> simp_all

end EndsWith

/-- How a buffer was written from a state of the sink: whole, or up to the fault that came first. -/
structure Outcome.Writes {σ : Type} (sink : Sink σ) (state : σ) (buffer : List UInt8)
    (outcome : Outcome σ) : Prop where
  transcript : sink.Transcript state outcome.calls outcome.state
  ends : EndsWith outcome.calls outcome.fault
  taken : accepted outcome.calls <+: buffer
  whole_iff : outcome.fault = none ↔ accepted outcome.calls = buffer

namespace Outcome.Writes

variable {σ : Type} {sink : Sink σ} {state next : σ} {buffer rest : List UInt8}

/-- A call that ends nothing, and takes the front of the buffer, comes before a writing. -/
theorem after {call : Call} {outcome : Outcome σ} (going : call.fault? = none)
    (offered : call.offered = buffer) (nonempty : buffer ≠ [])
    (given : sink.write state buffer = (call.answer, next)) (cut : call.taken ++ rest = buffer)
    (writes : outcome.Writes sink next rest) : (outcome.after call).Writes sink state buffer := by
  have sum : accepted (call :: outcome.calls) = call.taken ++ accepted outcome.calls := rfl
  refine ⟨?_, (EndsWith.single going).append writes.ends, ?_, ?_⟩
  · subst offered
    exact .asked_eq nonempty given writes.transcript
  · change accepted (call :: outcome.calls) <+: buffer
    rw [sum, ← cut, List.prefix_append_right_inj]
    exact writes.taken
  · change outcome.fault = none ↔ accepted (call :: outcome.calls) = buffer
    rw [sum, ← cut, List.append_cancel_left_eq]
    exact writes.whole_iff

/-- A call that ends the writing takes nothing of the buffer. -/
theorem stopped {call : Call} {fault : Fault} (fatal : call.fault? = some fault)
    (offered : call.offered = buffer) (nonempty : buffer ≠ [])
    (given : sink.write state buffer = (call.answer, next)) (none : call.taken = []) :
    Outcome.Writes sink state buffer ⟨[call], some fault, next⟩ := by
  have sum : accepted [call] = [] := by simp [accepted, none]
  refine ⟨?_, .single fatal, by simp [sum], by simp [sum, nonempty.symm]⟩
  subst offered
  exact .asked_eq nonempty given (.silent next)

end Outcome.Writes

/-! ### Which devices are sinks -/

/-- The device interrupts this many times in a row before it answers a buffer otherwise. -/
def Interrupts {σ : Type} (write : σ → List UInt8 → Answer × σ) (buffer : List UInt8) :
    Nat → σ → Prop
  | 0, state => (write state buffer).1 ≠ .interrupted
  | count + 1, state =>
    (write state buffer).1 = .interrupted ∧ Interrupts write buffer count (write state buffer).2

theorem Interrupts.unique {σ : Type} {write : σ → List UInt8 → Answer × σ} {buffer : List UInt8}
    {first second : Nat} {state : σ} (left : Interrupts write buffer first state)
    (right : Interrupts write buffer second state) : first = second := by
  induction first generalizing second state with
  | zero =>
    cases second with
    | zero => rfl
    | succ second => exact absurd right.1 left
  | succ first ih =>
    cases second with
    | zero => exact absurd left.1 right
    | succ second => rw [ih left.2 right.2]

namespace Sink

variable {σ : Type}

/-- Every device is a sink that keeps within the buffers it is offered and does not interrupt for
ever: patience is no condition beyond the end of each writing. Empty buffers are never offered. -/
theorem exists_write_eq (write : σ → List UInt8 → Answer × σ)
    (within : ∀ state buffer count, buffer ≠ [] → (write state buffer).1 = .took count →
      count ≤ buffer.length)
    (ends : ∀ state buffer, buffer ≠ [] → ∃ count, Interrupts write buffer count state) :
    ∃ sink : Sink σ, ∀ state buffer, buffer ≠ [] →
      sink.write state buffer = write state buffer := by
  classical
  let offer (state : σ) (buffer : List UInt8) : Answer × σ :=
    if buffer = [] then (.took 0, state) else write state buffer
  let patience (state : σ) (buffer : List UInt8) : Nat :=
    if nonempty : buffer ≠ [] then (ends state buffer nonempty).choose else 0
  refine ⟨⟨offer, patience, ?_, ?_⟩, fun state buffer nonempty => if_neg nonempty⟩
  · intro state buffer count took
    by_cases empty : buffer = []
    · simp_all [offer]
    · exact within state buffer count empty (by simpa [offer, empty] using took)
  · intro state buffer stopped
    by_cases empty : buffer = []
    · simp [offer, empty] at stopped
    · have now : (write state buffer).1 = .interrupted := by simpa [offer, empty] using stopped
      have here := (ends state buffer empty).choose_spec
      have next := (ends (write state buffer).2 buffer empty).choose_spec
      -- This interruption is one of those counted here and none of those counted next.
      have more : Interrupts write buffer (_ + 1) state := ⟨now, next⟩
      simp only [patience, offer, ne_eq, empty, not_false_eq_true, dite_true, ite_false,
        here.unique more]
      exact Nat.lt_succ_self _

/-- Writing a buffer is a conversation with the sink that stops at the first fault. -/
theorem writeAll_writes (sink : Sink σ) (state : σ) (buffer : List UInt8) :
    (sink.writeAll state buffer).Writes sink state buffer := by
  fun_induction Sink.writeAll sink state buffer with
  | case1 state buffer empty =>
    -- Nothing is left to write.
    have nil : buffer = [] := List.isEmpty_iff.mp empty
    subst nil
    exact ⟨.silent state, .nil, List.prefix_refl _, by simp [accepted]⟩
  | case2 state buffer nonempty next asked =>
    -- The sink takes nothing.
    exact .stopped rfl rfl (by simpa using nonempty) asked rfl
  | case3 state buffer nonempty count next asked ih =>
    -- It takes the front, and is offered the rest.
    exact .after rfl rfl (by simpa using nonempty) asked (List.take_append_drop _ _) ih
  | case4 state buffer nonempty next asked ih =>
    -- It interrupts, and is offered the same again.
    exact .after rfl rfl (by simpa using nonempty) asked rfl ih
  | case5 state buffer nonempty fault next asked =>
    -- It fails.
    exact .stopped rfl rfl (by simpa using nonempty) asked rfl

end Sink

end JavaSource
