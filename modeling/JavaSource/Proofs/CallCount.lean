import JavaSource.Proofs.FaultPrefix
import JavaSource.Proofs.LimitedCalls
import JavaSource.Sink.Budget
import Mathlib

/-!
# How many calls a writing takes

An interruption takes nothing of a buffer, so what is left of it does not show that a writing comes
to an end. It does on a device that never interrupts two calls in a row: each interruption is
followed by a call that takes a byte or is the last. So there are at most two calls for each byte.
This adds up over all the texts that a writer is handed, since the last call for a text was not
interrupted.

That a writing to a device ends is said with a limit on the calls: it ends after some calls if these
are all that is made under every limit that allows them, and the calls to spare are left.
-/
namespace JavaSource

namespace Device

variable {σ : Type} {device : Device σ}

/-! ### Devices that never interrupt twice -/

/-- The states that offers can bring a device to. -/
inductive Reaches (device : Device σ) : σ → σ → Prop where
  | here (state : σ) : Reaches device state state
  | offered {state final : σ} {buffer : List UInt8} (nonempty : buffer ≠ [])
      (later : Reaches device (device.write state buffer).2 final) : Reaches device state final

theorem Reaches.trans {first second third : σ} (front : device.Reaches first second)
    (back : device.Reaches second third) : device.Reaches first third := by
  induction front with
  | here => exact back
  | offered nonempty _ ih => exact .offered nonempty (ih back)

/-- From this state on no two calls in a row are interrupted, whatever is offered. -/
def Steady (device : Device σ) (start : σ) : Prop :=
  ∀ state, device.Reaches start state → ∀ first second, first ≠ [] → second ≠ [] →
    (device.write state first).1 = .interrupted →
      (device.write (device.write state first).2 second).1 ≠ .interrupted

theorem Steady.of_reaches {start state : σ} (steady : device.Steady start)
    (reaches : device.Reaches start state) : device.Steady state :=
  fun later further => steady later (reaches.trans further)

theorem Steady.next {state : σ} {buffer : List UInt8} (steady : device.Steady state)
    (nonempty : buffer ≠ []) : device.Steady (device.write state buffer).2 :=
  steady.of_reaches (.offered nonempty (.here _))

end Device

theorem Sink.NeverTwice.steady {σ : Type} {sink : Sink σ} (never : sink.NeverTwice) (start : σ) :
    sink.device.Steady start :=
  fun state _ first second _ _ => never state first second

namespace Device

variable {σ : Type} {device : Device σ} {state next : σ} {buffer : List UInt8}

/-! ### One buffer -/

/-- Writing the buffer to the device ends with this outcome: so it does when its calls are allowed
and any number to spare, and these are left. -/
def Writes (device : Device σ) (state : σ) (buffer : List UInt8) (outcome : Outcome σ) : Prop :=
  ∀ spare, device.limited.writeAll (state, spare + outcome.calls.length) buffer =
    ⟨outcome.calls, outcome.fault, outcome.state, spare⟩

theorem writes_nil (device : Device σ) (state : σ) : device.Writes state [] { state } := by
  intro spare
  rw [Sink.writeAll, if_pos List.isEmpty_nil]
  rfl

/-- What the first answer of the device leads to while there are calls left. -/
theorem limited_writeAll_of_write {answer : Answer} (nonempty : buffer ≠ [])
    (given : device.write state buffer = (answer, next)) (left : Nat) :
    device.limited.writeAll (state, left + 1) buffer =
      match answer with
      | .took 0 => ⟨[⟨buffer, .took 0⟩], some .nothingTaken, next, left⟩
      | .took (count + 1) =>
        (device.limited.writeAll (next, left) (buffer.drop (count + 1))).after
          ⟨buffer, .took (count + 1)⟩
      | .interrupted => (device.limited.writeAll (next, left) buffer).after ⟨buffer, .interrupted⟩
      | .failed fault => ⟨[⟨buffer, .failed fault⟩], some fault, next, left⟩ := by
  rw [Sink.writeAll_of_write nonempty (device.limited_write_of_write given left)]
  rcases answer with (_ | _) | _ | _ <;> rfl

/-- A call that leads to another writing is one more than that takes. -/
theorem Writes.after {call : Call} {rest : List UInt8} {outcome : Outcome σ}
    (leads : ∀ left, device.limited.writeAll (state, left + 1) buffer =
      (device.limited.writeAll (next, left) rest).after call)
    (writes : device.Writes next rest outcome) :
    device.Writes state buffer (outcome.after call) := by
  intro spare
  have later := congrArg (Outcome.after call) (writes spare)
  exact (leads (spare + outcome.calls.length)).trans later

/-- Writing the buffer ends after one call or more, and no more than so many. -/
def WritesWithin (device : Device σ) (state : σ) (buffer : List UInt8) (most : Nat) : Prop :=
  ∃ outcome, device.Writes state buffer outcome ∧ device.Reaches state outcome.state ∧
    1 ≤ outcome.calls.length ∧ outcome.calls.length ≤ most

/-- After a call that was not interrupted nothing is left to be written, or less than before, so
one of two calls for the first byte was not needed. -/
theorem writesWithin_of_answered (steady : device.Steady state) (nonempty : buffer ≠ [])
    (answered : (device.write state buffer).1 ≠ .interrupted)
    (shorter : ∀ next rest, device.Steady next → rest ≠ [] → rest.length < buffer.length →
      device.WritesWithin next rest (2 * rest.length)) :
    device.WritesWithin state buffer (2 * buffer.length - 1) := by
  have length : 0 < buffer.length := List.length_pos_iff.mpr nonempty
  have one_call : 1 ≤ 2 * buffer.length - 1 := by omega
  have reaches : device.Reaches state (device.write state buffer).2 :=
    .offered nonempty (.here _)
  have still := steady.of_reaches reaches
  rcases asked : device.write state buffer with ⟨answer, next⟩
  rw [asked] at answered reaches still
  cases answer with
  | interrupted => exact absurd rfl answered
  | failed fault =>
    have writes : device.Writes state buffer ⟨[⟨buffer, .failed fault⟩], some fault, next⟩ :=
      limited_writeAll_of_write nonempty asked
    exact ⟨_, writes, reaches, Nat.le_refl 1, one_call⟩
  | took count =>
    cases count with
    | zero =>
      have writes : device.Writes state buffer ⟨[⟨buffer, .took 0⟩], some .nothingTaken, next⟩ :=
        limited_writeAll_of_write nonempty asked
      exact ⟨_, writes, reaches, Nat.le_refl 1, one_call⟩
    | succ count =>
      have left : (buffer.drop (count + 1)).length = buffer.length - (count + 1) :=
        List.length_drop
      by_cases all : buffer.drop (count + 1) = []
      -- The buffer is written with this one call.
      · have rest : device.Writes next (buffer.drop (count + 1)) { state := next } :=
          all ▸ device.writes_nil next
        exact ⟨_, rest.after (limited_writeAll_of_write nonempty asked), reaches, Nat.le_refl 1,
          one_call⟩
      -- The byte that was taken pays for this call and for one more.
      · obtain ⟨outcome, writes, further, -, few⟩ := shorter next _ still all (by omega)
        refine ⟨_, writes.after (limited_writeAll_of_write nonempty asked),
          reaches.trans further, ?_, ?_⟩
        · exact Nat.le_add_left 1 _
        · change outcome.calls.length + 1 ≤ _
          omega

/-- Writing a buffer to a device that never interrupts twice ends after at most two calls for each
byte. -/
theorem writesWithin_of_steady (steady : device.Steady state) (nonempty : buffer ≠ []) :
    device.WritesWithin state buffer (2 * buffer.length) := by
  -- The induction is on the length; a call that is interrupted leaves it as it is, but the next
  -- one does not.
  induction size : buffer.length using Nat.strongRecOn generalizing state buffer with
  | ind length ih =>
    have shorter (next : σ) (rest : List UInt8) (still : device.Steady next) (some_byte : rest ≠ [])
        (less : rest.length < buffer.length) : device.WritesWithin next rest (2 * rest.length) :=
      ih rest.length (size ▸ less) still some_byte rfl
    by_cases stopped : (device.write state buffer).1 = .interrupted
    · have again := steady state (.here state) buffer buffer nonempty nonempty stopped
      obtain ⟨outcome, writes, further, -, few⟩ :=
        writesWithin_of_answered (steady.next nonempty) nonempty again shorter
      have asked : device.write state buffer = (.interrupted, (device.write state buffer).2) :=
        Prod.ext stopped rfl
      refine ⟨_, writes.after (limited_writeAll_of_write nonempty asked),
        .offered nonempty further, ?_, ?_⟩
      · exact Nat.le_add_left 1 _
      · have positive : 0 < buffer.length := List.length_pos_iff.mpr nonempty
        change outcome.calls.length + 1 ≤ _
        omega
    · obtain ⟨outcome, writes, further, some_call, few⟩ :=
        writesWithin_of_answered steady nonempty stopped shorter
      exact ⟨outcome, writes, further, some_call, by omega⟩

end Device

/-! ### A run of texts -/

/-- The writer with this many calls left to the device. -/
def Writer.allowed {σ : Type} (writer : Writer σ) (limit : Nat) : Writer (σ × Nat) where
  state := (writer.state, limit)
  calls := writer.calls
  fault := writer.fault
  bytesWritten := writer.bytesWritten

namespace Device

variable {σ : Type} {device : Device σ}

/-- Handing the texts to the writer ends with the other writer, after the calls made: so it does
when these are allowed and any number to spare, and those are left. -/
structure Ends (device : Device σ) (writer : Writer σ) (pieces : List String) (made : List Call)
    (after : Writer σ) : Prop where
  calls : after.calls = writer.calls ++ made
  run : ∀ spare, (writer.allowed (spare + made.length)).pushAll device.limited pieces =
    after.allowed spare

namespace Ends

variable {writer between after : Writer σ} {first second : List String} {made more : List Call}

theorem of_same (same : ∀ limit, (writer.allowed limit).pushAll device.limited first =
    writer.allowed limit) : device.Ends writer first [] writer :=
  ⟨(List.append_nil _).symm, same⟩

theorem append (front : device.Ends writer first made between)
    (back : device.Ends between second more after) :
    device.Ends writer (first ++ second) (made ++ more) after := by
  refine ⟨by rw [back.calls, front.calls, List.append_assoc], fun spare => ?_⟩
  have sum : spare + (made ++ more).length = spare + more.length + made.length := by
    rw [List.length_append]
    omega
  rw [sum, Writer.pushAll_append, front.run, back.run]

/-- On a device that is a sink these are the calls that the writer makes. -/
theorem calls_pushAll {sink : Sink σ} (ends : sink.device.Ends writer first made after) :
    (writer.pushAll sink first).calls = writer.calls ++ made := by
  -- A limit that allows for all the calls of either run cuts none of them off.
  obtain ⟨spare, enough⟩ : ∃ spare, (writer.pushAll sink first).calls.length ≤ spare :=
    ⟨_, Nat.le_refl _⟩
  have start : writer.outcome.Limits (writer.calls.length + (spare + made.length))
      (writer.allowed (spare + made.length)).outcome := by
    have within : writer.outcome.Limits (writer.calls.length + (spare + made.length)) _ :=
      .within (Nat.le_add_right _ _)
    change writer.outcome.Limits _ ⟨_, _, _, _ - writer.calls.length⟩ at within
    rwa [Nat.add_sub_cancel_left] at within
  have limits : (writer.pushAll sink first).outcome.Limits _ _ :=
    Writer.foldl_push_limits start first
  rw [ends.run spare] at limits
  have same := limits.take_calls
  change after.calls.take _ = (writer.pushAll sink first).calls.take _ at same
  rw [ends.calls, List.take_of_length_le (by rw [List.length_append]; omega),
    List.take_of_length_le (by omega)] at same
  exact same.symm

end Ends

/-- Handing one text to a writer ends after at most two calls for each byte. There is a call, unless
the text is empty or dropped. -/
theorem exists_ends_push (writer : Writer σ) (steady : device.Steady writer.state) (text : String) :
    ∃ made after, device.Ends writer [text] made after ∧
      device.Reaches writer.state after.state ∧ made.length ≤ 2 * text.utf8ByteSize ∧
      (1 ≤ made.length ↔ writer.fault = none ∧ text ≠ "") := by
  by_cases written : writer.fault = none ∧ text ≠ ""
  · obtain ⟨healthy, nonempty⟩ := written
    have some_byte : Text.bytes text ≠ [] := mt (Text.bytes_eq_nil_iff text).mp nonempty
    obtain ⟨outcome, writes, reaches, some_call, few⟩ := writesWithin_of_steady steady some_byte
    rw [Text.length_bytes] at few
    let counted := if outcome.fault.isNone then writer.bytesWritten + text.utf8ByteSize
      else writer.bytesWritten
    refine ⟨outcome.calls, ⟨outcome.state, writer.calls ++ outcome.calls, outcome.fault, counted⟩,
      ⟨rfl, fun spare => ?_⟩, reaches, few, iff_of_true some_call ⟨healthy, nonempty⟩⟩
    let allowed := writer.allowed (spare + outcome.calls.length)
    refine (Writer.push_of_healthy device.limited allowed text healthy nonempty).trans ?_
    have run : device.limited.writeAll allowed.state (Text.bytes text) = _ := writes spare
    rw [run]
    rfl
  · refine ⟨[], writer, .of_same fun limit => ?_, .here _, Nat.zero_le _,
      iff_of_false (by simp) written⟩
    by_cases empty : text = ""
    · subst empty
      exact Writer.push_empty _ _
    · exact Writer.push_of_fault _ _ text fun healthy => written ⟨healthy, empty⟩

/-- Whoever made the texts, two calls for each byte are enough for all of them. -/
theorem exists_ends (writer : Writer σ) (steady : device.Steady writer.state)
    (pieces : List String) :
    ∃ made after, device.Ends writer pieces made after ∧
      made.length ≤ 2 * (String.join pieces).utf8ByteSize := by
  induction pieces generalizing writer with
  | nil => exact ⟨[], writer, .of_same fun _ => rfl, Nat.zero_le _⟩
  | cons text rest ih =>
    obtain ⟨made, between, front, reaches, few, -⟩ := exists_ends_push writer steady text
    obtain ⟨more, after, back, few_more⟩ := ih between (steady.of_reaches reaches)
    refine ⟨made ++ more, after, front.append back, ?_⟩
    have size : (String.join (text :: rest)).utf8ByteSize =
        text.utf8ByteSize + (String.join rest).utf8ByteSize := by
      simp [String.utf8ByteSize_append]
    rw [List.length_append, size]
    omega

/-! ### Devices that only interrupt -/

theorem left_of_interrupted (only : ∀ state buffer, (device.write state buffer).1 = .interrupted)
    {buffer : List UInt8} (nonempty : buffer ≠ []) (state : σ) (limit : Nat) :
    (device.limited.writeAll (state, limit) buffer).state.2 = 0 := by
  induction limit generalizing state with
  | zero =>
    have failed : device.limited.write (state, 0) buffer = (.failed spent, state, 0) := rfl
    rw [Sink.writeAll_of_write nonempty failed]
  | succ left ih =>
    have asked : device.write state buffer = (.interrupted, (device.write state buffer).2) :=
      Prod.ext (only state buffer) rfl
    rw [limited_writeAll_of_write nonempty asked]
    exact ih (device.write state buffer).2

/-- Not every writing ends: a device that only interrupts uses up all calls that it is allowed. -/
theorem not_ends_of_interrupted
    (only : ∀ state buffer, (device.write state buffer).1 = .interrupted) {writer after : Writer σ}
    {text : String} {made : List Call} (healthy : writer.fault = none) (nonempty : text ≠ "") :
    ¬ device.Ends writer [text] made after := by
  intro ends
  have some_byte : Text.bytes text ≠ [] := mt (Text.bytes_eq_nil_iff text).mp nonempty
  have run : (writer.allowed (1 + made.length)).push device.limited text = after.allowed 1 :=
    ends.run 1
  rw [Writer.push_of_healthy device.limited _ text healthy nonempty] at run
  have left := left_of_interrupted only some_byte writer.state (1 + made.length)
  have one_left := congrArg (fun result => result.state.2) run
  exact absurd (left.symm.trans one_left) Nat.zero_ne_one

end Device

/-! ### Sinks -/

namespace Sink

variable {σ : Type} {sink : Sink σ} {start : σ}

theorem length_calls_push (steady : sink.device.Steady start) {text : String}
    (nonempty : text ≠ "") :
    1 ≤ (Writer.push sink { state := start } text).calls.length ∧
      (Writer.push sink { state := start } text).calls.length ≤ 2 * text.utf8ByteSize := by
  obtain ⟨made, after, ends, -, few, some_call⟩ :=
    Device.exists_ends_push { state := start } steady text
  have calls : (Writer.push sink { state := start } text).calls = made := ends.calls_pushAll
  rw [calls]
  exact ⟨some_call.mpr ⟨rfl, nonempty⟩, few⟩

theorem length_calls_pushAll (steady : sink.device.Steady start) (pieces : List String) :
    (Writer.pushAll sink { state := start } pieces).calls.length ≤
      2 * (String.join pieces).utf8ByteSize := by
  obtain ⟨made, after, ends, few⟩ := Device.exists_ends { state := start } steady pieces
  have calls : (Writer.pushAll sink { state := start } pieces).calls = made := ends.calls_pushAll
  rw [calls]
  exact few

end Sink

/-- On a device that never interrupts two calls in a row, whatever else it answers, handing a text
to a writer ends after at most two calls for each byte, and rendering a member does. For a text that
is not empty there is a call at least, unless an earlier fault makes the writer drop it. A budgeted
sink is such a device in each of its states, with every period, so these many calls suffice for a
text, a member and a file. -/
theorem Device.ends_within_twice :
    (∀ (σ : Type) (device : Device σ) (writer : Writer σ), device.Steady writer.state →
      (∀ text, text ≠ "" → ∃ made after, device.Ends writer [text] made after ∧
        (1 ≤ made.length ↔ writer.fault = none) ∧ made.length ≤ 2 * text.utf8ByteSize) ∧
      ∀ (member : Member) (margin : String) (context : Context), ∃ made after,
        device.Ends writer (member.pieces context margin) made after ∧
        made.length ≤ 2 * (member.render margin context).utf8ByteSize) ∧
    ∀ (b : Budget) (start : Budget.State), b.sink.device.Steady start ∧
      (∀ text, text ≠ "" →
        1 ≤ (Writer.push b.sink { state := start } text).calls.length ∧
        (Writer.push b.sink { state := start } text).calls.length ≤ 2 * text.utf8ByteSize) ∧
      (∀ (member : Member) (margin : String) (context : Context),
        (Writer.run b.sink { state := start } (.member margin context member)).calls.length ≤
          2 * (member.render margin context).utf8ByteSize) ∧
      ∀ file : File, (file.send b.sink start).calls.length ≤ 2 * file.render.utf8ByteSize := by
  refine ⟨fun σ device writer steady =>
    ⟨fun text nonempty => ?text, fun member margin context => ?member⟩, fun b start => ?budget⟩
  case text =>
    obtain ⟨made, after, ends, -, few, some_call⟩ := exists_ends_push writer steady text
    have dropped : writer.fault = none ∧ text ≠ "" ↔ writer.fault = none :=
      and_iff_left nonempty
    exact ⟨made, after, ends, some_call.trans dropped, few⟩
  case member => exact exists_ends writer steady (member.pieces context margin)
  case budget =>
    have steady : b.sink.device.Steady start := b.neverTwice_sink.steady start
    exact ⟨steady, fun text nonempty => Sink.length_calls_push steady nonempty,
      fun member margin context => Sink.length_calls_pushAll steady _,
      fun file => Sink.length_calls_pushAll steady file.pieces⟩

/-- A sink that takes one byte in each call and interrupts every second one. -/
def Budget.stuttering : Budget := { chunk := some 1, period := 2 }

/-- Where each byte is held up by an interruption it takes all these calls. -/
theorem Device.ends_within_twice_stuttering :
    Budget.stuttering.sink.device.Steady ⟨none, 1⟩ ∧ "ab" ≠ "" ∧
      ∃ made after, Budget.stuttering.sink.device.Ends { state := ⟨none, 1⟩ } ["ab"] made after ∧
        made.length = 2 * "ab".utf8ByteSize := by
  have steady : Budget.stuttering.sink.device.Steady ⟨none, 1⟩ :=
    Budget.stuttering.neverTwice_sink.steady ⟨none, 1⟩
  obtain ⟨made, after, ends, -, -⟩ :=
    (ends_within_twice.1 _ Budget.stuttering.sink.device { state := ⟨none, 1⟩ } steady).1 "ab"
      (by decide)
  have calls : (Writer.pushAll Budget.stuttering.sink { state := ⟨none, 1⟩ } ["ab"]).calls = made :=
    ends.calls_pushAll
  refine ⟨steady, by decide, made, after, ends, ?_⟩
  rw [← calls]
  cbv

end JavaSource
