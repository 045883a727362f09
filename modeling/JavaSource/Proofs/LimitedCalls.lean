import JavaSource.Proofs.WriterRun

/-!
# Writing to a device for so many calls

A device answers offers as a sink does, but it may interrupt for ever, so writing to it need not
end. For a limited number of calls it is a sink: a call after these fails. What is written to it
then makes the first calls of what would be written to the device. For a device that is a sink
already this is proved here: the limit leaves the calls up to it as they are, and a run with no more
calls than that as a whole.
-/
namespace JavaSource

structure Device (σ : Type) where
  write : σ → List UInt8 → Answer × σ
  took_le : ∀ state buffer count, (write state buffer).1 = .took count → count ≤ buffer.length

def Sink.device {σ : Type} (sink : Sink σ) : Device σ := ⟨sink.write, sink.took_le⟩

namespace Device

variable {σ : Type}

/-- The answer to a call after the last that is allowed. -/
def spent : Fault := ⟨.other, "no calls left"⟩

/-- The answer of the device while there are calls left. -/
def answer (device : Device σ) : σ × Nat → List UInt8 → Answer × σ × Nat
  | (state, 0), _ => (.failed spent, state, 0)
  | (state, left + 1), buffer =>
    ((device.write state buffer).1, (device.write state buffer).2, left)

/-- The device with the number of calls that are left. An interruption is a call too, so there are
not more of them than that. -/
def limited (device : Device σ) : Sink (σ × Nat) where
  write := device.answer
  patience := fun state _ => state.2
  took_le := by
    rintro ⟨state, left⟩ buffer count took
    cases left with
    | zero => cases took
    | succ left => exact device.took_le state buffer count took
  patience_lt := by
    rintro ⟨state, left⟩ buffer interrupted
    cases left with
    | zero => cases interrupted
    | succ left => exact Nat.lt_succ_self left

theorem limited_write_of_write (device : Device σ) {state next : σ} {buffer : List UInt8}
    {answer : Answer} (given : device.write state buffer = (answer, next)) (left : Nat) :
    device.limited.write (state, left + 1) buffer = (answer, next, left) := by
  change ((device.write state buffer).1, (device.write state buffer).2, left) = _
  rw [given]

end Device

/-! ### One buffer -/

/-- What a sink's first answer leads to. -/
theorem Sink.writeAll_of_write {σ : Type} {sink : Sink σ} {state next : σ} {buffer : List UInt8}
    {answer : Answer} (nonempty : buffer ≠ []) (given : sink.write state buffer = (answer, next)) :
    sink.writeAll state buffer =
      match answer with
      | .took 0 => ⟨[⟨buffer, .took 0⟩], some .nothingTaken, next⟩
      | .took (count + 1) =>
        (sink.writeAll next (buffer.drop (count + 1))).after ⟨buffer, .took (count + 1)⟩
      | .interrupted => (sink.writeAll next buffer).after ⟨buffer, .interrupted⟩
      | .failed fault => ⟨[⟨buffer, .failed fault⟩], some fault, next⟩ := by
  rw [Sink.writeAll, if_neg (by simpa using nonempty)]
  split
  all_goals
    rename_i asked
    obtain ⟨rfl, rfl⟩ := Prod.mk.inj (given.symm.trans asked)
    rfl

/-- What a limit on the calls leaves of a writing: all of it, or the calls up to the limit and one
that fails. -/
inductive Outcome.Limits {σ : Type} (limit : Nat) (whole : Outcome σ) :
    Outcome (σ × Nat) → Prop where
  | within (fits : whole.calls.length ≤ limit) :
    Limits limit whole ⟨whole.calls, whole.fault, whole.state, limit - whole.calls.length⟩
  | beyond {last : Call} {fault : Fault} {state : σ × Nat} (exceeds : limit < whole.calls.length) :
    Limits limit whole ⟨whole.calls.take limit ++ [last], some fault, state⟩

namespace Outcome.Limits

variable {σ : Type} {limit : Nat} {whole : Outcome σ} {cut : Outcome (σ × Nat)}

theorem after (limits : whole.Limits limit cut) (call : Call) :
    (whole.after call).Limits (limit + 1) (cut.after call) := by
  cases limits with
  | within fits =>
    have same : limit + 1 - (whole.after call).calls.length = limit - whole.calls.length :=
      Nat.add_sub_add_right limit 1 _
    exact same ▸ .within (Nat.succ_le_succ fits)
  | beyond exceeds => exact .beyond (Nat.succ_lt_succ exceeds)

/-- The calls up to the limit are there in either case. -/
theorem take_calls (limits : whole.Limits limit cut) :
    cut.calls.take limit = whole.calls.take limit := by
  cases limits with
  | within => rfl
  | beyond exceeds => simp [Nat.le_of_lt exceeds]

end Outcome.Limits

namespace Sink

variable {σ : Type} {sink : Sink σ} {state next : σ} {buffer : List UInt8}

/-- Without calls left the first one fails, so only the limits that allow a call matter. -/
theorem limits_of_succ (nonempty : buffer ≠ []) {whole : Outcome σ} (some_call : whole.calls ≠ [])
    (later : ∀ left, whole.Limits (left + 1)
      (sink.device.limited.writeAll (state, left + 1) buffer)) (limit : Nat) :
    whole.Limits limit (sink.device.limited.writeAll (state, limit) buffer) := by
  cases limit with
  | zero =>
    have failed : sink.device.limited.write (state, 0) buffer = (.failed Device.spent, state, 0) :=
      rfl
    rw [writeAll_of_write nonempty failed]
    exact .beyond (List.length_pos_iff.mpr some_call)
  | succ left => exact later left

theorem limited_write {answer : Answer} (given : sink.write state buffer = (answer, next))
    (left : Nat) : sink.device.limited.write (state, left + 1) buffer = (answer, next, left) :=
  sink.device.limited_write_of_write given left

theorem writeAll_limits (sink : Sink σ) (state : σ) (buffer : List UInt8) (limit : Nat) :
    (sink.writeAll state buffer).Limits limit
      (sink.device.limited.writeAll (state, limit) buffer) := by
  -- The induction is on the sink's own writing; the limit goes down with each call.
  fun_induction Sink.writeAll sink state buffer generalizing limit with
  | case1 state buffer empty =>
    -- No call is made, and none is needed.
    rw [Sink.writeAll, if_pos empty]
    exact .within (Nat.zero_le limit)
  | case2 state buffer nonempty next asked =>
    have some_byte : buffer ≠ [] := by simpa using nonempty
    refine limits_of_succ some_byte (List.cons_ne_nil _ _) (fun left => ?_) limit
    rw [writeAll_of_write some_byte (limited_write asked left)]
    -- The sink takes nothing, so its first call is its last.
    exact .within (Nat.le_add_left 1 left)
  | case3 state buffer nonempty count next asked ih =>
    have some_byte : buffer ≠ [] := by simpa using nonempty
    refine limits_of_succ some_byte (List.cons_ne_nil _ _) (fun left => ?_) limit
    rw [writeAll_of_write some_byte (limited_write asked left)]
    -- It takes the front, and the rest is written with one call less.
    exact (ih left).after _
  | case4 state buffer nonempty next asked ih =>
    have some_byte : buffer ≠ [] := by simpa using nonempty
    refine limits_of_succ some_byte (List.cons_ne_nil _ _) (fun left => ?_) limit
    rw [writeAll_of_write some_byte (limited_write asked left)]
    -- It interrupts, and that has used up a call too.
    exact (ih left).after _
  | case5 state buffer nonempty fault next asked =>
    have some_byte : buffer ≠ [] := by simpa using nonempty
    refine limits_of_succ some_byte (List.cons_ne_nil _ _) (fun left => ?_) limit
    rw [writeAll_of_write some_byte (limited_write asked left)]
    -- It fails.
    exact .within (Nat.le_add_left 1 left)

end Sink

/-! ### A run of texts -/

namespace Writer

variable {σ : Type}

/-- A writer as the outcome of all that it was handed. -/
def outcome (writer : Writer σ) : Outcome σ := ⟨writer.calls, writer.fault, writer.state⟩

/-- Calls within the limit leave the other calls to what comes after them. -/
theorem limits_append {limit : Nat} {earlier later : List Call} {fault : Option Fault} {state : σ}
    {cut : Outcome (σ × Nat)} (fits : earlier.length ≤ limit)
    (limits : Outcome.Limits (limit - earlier.length) ⟨later, fault, state⟩ cut) :
    Outcome.Limits limit ⟨earlier ++ later, fault, state⟩
      { cut with calls := earlier ++ cut.calls } := by
  have length : (earlier ++ later).length = earlier.length + later.length := List.length_append
  cases limits with
  | within more =>
    have left : limit - earlier.length - later.length = limit - (earlier ++ later).length := by
      rw [length, Nat.sub_sub]
    change later.length ≤ limit - earlier.length at more
    exact left ▸ .within (by change (earlier ++ later).length ≤ limit; omega)
  | beyond exceeds =>
    have front : (earlier ++ later).take limit =
        earlier ++ later.take (limit - earlier.length) := by
      rw [List.take_append, List.take_of_length_le fits]
    change limit - earlier.length < later.length at exceeds
    rw [← List.append_assoc, ← front]
    exact .beyond (by change limit < (earlier ++ later).length; omega)

theorem exists_calls_push (sink : Sink σ) (writer : Writer σ) (text : String) :
    ∃ more, (writer.push sink text).calls = writer.calls ++ more := by
  unfold push
  split
  · exact ⟨[], (List.append_nil _).symm⟩
  · exact ⟨_, rfl⟩

theorem push_limits {sink : Sink σ} {limit : Nat} {writer : Writer σ}
    {cut : Writer (σ × Nat)} (limits : writer.outcome.Limits limit cut.outcome) (text : String) :
    (writer.push sink text).outcome.Limits limit (cut.push sink.device.limited text).outcome := by
  generalize same : cut.outcome = given at limits
  cases limits with
  | within fits =>
    obtain ⟨calls, fault, state⟩ := Outcome.mk.inj same
    by_cases empty : text = ""
    · subst empty
      rw [push_empty, push_empty, same]
      exact .within fits
    by_cases faulty : writer.fault ≠ none
    · rw [push_of_fault sink writer text faulty, push_of_fault _ cut text (by rwa [fault]), same]
      exact .within fits
    -- Both writers hand the text on, one of them with the calls that are left.
    · have healthy : writer.fault = none := Classical.not_not.mp faulty
      rw [push_of_healthy sink writer text healthy empty,
        push_of_healthy _ cut text (fault.trans healthy) empty, calls, state]
      exact limits_append fits (sink.writeAll_limits writer.state (Text.bytes text) _)
  | beyond exceeds =>
    obtain ⟨-, fault, -⟩ := Outcome.mk.inj same
    obtain ⟨more, calls⟩ := writer.exists_calls_push sink text
    change limit < writer.calls.length at exceeds
    -- More calls beyond the limit do not matter.
    have front : (writer.push sink text).calls.take limit = writer.calls.take limit := by
      rw [calls, List.take_append_of_le_length (Nat.le_of_lt exceeds)]
    rw [push_of_fault _ cut text (by simp [fault]), same]
    change Outcome.Limits limit _ ⟨writer.calls.take limit ++ _, _, _⟩
    rw [← front]
    refine .beyond (Nat.lt_of_lt_of_le exceeds ?_)
    change writer.calls.length ≤ (writer.push sink text).calls.length
    rw [calls, List.length_append]
    exact Nat.le_add_right _ _

theorem foldl_push_limits {sink : Sink σ} {limit : Nat} {writer : Writer σ}
    {cut : Writer (σ × Nat)} (limits : writer.outcome.Limits limit cut.outcome)
    (pieces : List String) :
    (writer.pushAll sink pieces).outcome.Limits limit
      (cut.pushAll sink.device.limited pieces).outcome := by
  induction pieces generalizing writer cut with
  | nil => exact limits
  | cons text rest ih => exact ih (push_limits limits text)

/-- Writing texts to a sink with a limit on its calls makes the calls that it makes without one, up
to the limit; if these are all, nothing else differs. -/
theorem pushAll_limits (sink : Sink σ) (start : σ) (limit : Nat) (pieces : List String) :
    (pushAll sink { state := start } pieces).outcome.Limits limit
      (pushAll sink.device.limited { state := (start, limit) } pieces).outcome :=
  foldl_push_limits (.within (Nat.zero_le limit)) pieces

end Writer

end JavaSource
