import JavaSource.Proofs.FaultPrefix
import JavaSource.Sink.Budget

/-!
# Where a budget cuts the text

A budgeted sink takes a whole text exactly when the text fits its budget. Otherwise writing ends
with the fault of the sink, and a sink that takes what fits has then taken exactly the budget,
however its chunks and its interruptions fall and whatever pieces the text comes in.
-/
namespace JavaSource.Budget

/-- The fault that writing ends with once the budget is used up. -/
def fullFault (b : Budget) : Fault :=
  match b.onFull with
  | .reject => b.fault
  | .partially => b.fault
  | .zero => .nothingTaken

/-- No chunk is empty, so a call that is answered at all takes something while the budget lasts. -/
def TakesSomething (b : Budget) : Prop := ∀ size, b.chunk = some size → 1 ≤ size

theorem wanted_pos {b : Budget} (takes : b.TakesSomething) {buffer : List UInt8}
    (nonempty : buffer ≠ []) : 0 < b.wanted buffer := by
  have length := List.length_pos_iff.mpr nonempty
  unfold wanted
  split
  · exact length
  next size chunk =>
    have size_pos := takes size chunk
    omega

/-- What one call does to a budget: it is interrupted, takes something that fits, fails because
the chunk does not fit, or takes nothing because nothing fits. -/
theorem write_cases {b : Budget} (takes : b.TakesSomething) {state next : State} {left : Nat}
    {buffer : List UInt8} {answer : Answer} (budget : state.remaining = some left)
    (nonempty : buffer ≠ []) (asked : b.write state buffer = (answer, next)) :
    (answer = .interrupted ∧ next.remaining = some left) ∨
    (∃ count, answer = .took (count + 1) ∧ count + 1 ≤ left ∧
      next.remaining = some (left - (count + 1))) ∨
    (answer = .failed b.fullFault ∧ left < buffer.length ∧ (b.onFull ≠ .reject → left = 0)) ∨
    (answer = .took 0 ∧ b.fullFault = .nothingTaken ∧ left = 0) := by
  have wanted := wanted_pos takes nonempty
  have within := b.wanted_le buffer
  simp only [write, budget] at asked
  split at asked
  · obtain ⟨rfl, rfl⟩ := Prod.mk.inj asked
    exact .inl ⟨rfl, rfl⟩
  · split at asked
    next fits =>
      obtain ⟨rfl, rfl⟩ := Prod.mk.inj asked
      refine .inr (.inl ⟨b.wanted buffer - 1, ?_⟩)
      have restore : b.wanted buffer - 1 + 1 = b.wanted buffer := by omega
      exact ⟨by rw [restore], by omega, by rw [restore]⟩
    next exceeds =>
      split at asked
      next refuses =>
        obtain ⟨rfl, rfl⟩ := Prod.mk.inj asked
        refine .inr (.inr (.inl ⟨?_, by omega, ?_⟩))
        · rcases refuses with mode | ⟨mode, -⟩ <;> simp [fullFault, mode]
        · intro accepts
          exact (refuses.resolve_left accepts).2
      next accepts =>
        obtain ⟨rfl, rfl⟩ := Prod.mk.inj asked
        cases left with
        | succ left => exact .inr (.inl ⟨left, rfl, Nat.le_refl _, by simp⟩)
        | zero =>
          refine .inr (.inr (.inr ⟨rfl, ?_, rfl⟩))
          cases mode : b.onFull <;> simp_all [fullFault]

/-- How a budget cuts one buffer. -/
structure Cuts (b : Budget) (left : Nat) (buffer : List UInt8) (outcome : Outcome State) :
    Prop where
  fits : buffer.length ≤ left →
    outcome.fault = none ∧ outcome.state.remaining = some (left - buffer.length)
  full : left < buffer.length → outcome.fault = some b.fullFault
  taken : left < buffer.length → b.onFull ≠ .reject → accepted outcome.calls = buffer.take left

namespace Cuts

variable {b : Budget} {left : Nat} {buffer : List UInt8} {outcome : Outcome State}

theorem after_interrupted (cuts : b.Cuts left buffer outcome) :
    b.Cuts left buffer (outcome.after ⟨buffer, .interrupted⟩) :=
  ⟨cuts.fits, cuts.full, cuts.taken⟩

/-- What is left of the budget cuts what is left of the buffer. -/
theorem after_took {count : Nat} (fits : count ≤ left) (within : count ≤ buffer.length)
    (cuts : b.Cuts (left - count) (buffer.drop count) outcome) :
    b.Cuts left buffer (outcome.after ⟨buffer, .took count⟩) := by
  have length : (buffer.drop count).length = buffer.length - count := List.length_drop
  refine ⟨fun all => ?_, fun exceeds => cuts.full (by omega), fun exceeds accepts => ?_⟩
  · obtain ⟨healthy, rest⟩ := cuts.fits (by omega)
    refine ⟨healthy, rest.trans ?_⟩
    congr 1
    omega
  · have sum : left = count + (left - count) := by omega
    change buffer.take count ++ accepted outcome.calls = buffer.take left
    rw [cuts.taken (by omega) accepts, sum, List.take_add, Nat.add_sub_cancel_left]

end Cuts

theorem writeAll_cuts {b : Budget} (takes : b.TakesSomething) {state : State} {left : Nat}
    (buffer : List UInt8) (budget : state.remaining = some left) :
    b.Cuts left buffer (b.sink.writeAll state buffer) := by
  fun_induction Sink.writeAll b.sink state buffer generalizing left with
  | case1 state buffer empty =>
    have nil : buffer = [] := List.isEmpty_iff.mp empty
    subst nil
    exact ⟨fun _ => ⟨rfl, budget⟩, fun exceeds => absurd exceeds (by simp),
      fun exceeds => absurd exceeds (by simp)⟩
  | case2 state buffer nonempty next asked =>
    -- Nothing was taken, so nothing is left of the budget.
    rcases write_cases takes budget (by simpa using nonempty) asked with
      ⟨stopped, -⟩ | ⟨count, took, -⟩ | ⟨failed, -⟩ | ⟨-, fault, rfl⟩
    · cases stopped
    · cases took
    · cases failed
    · have length : 0 < buffer.length := List.length_pos_iff.mpr (by simpa using nonempty)
      exact ⟨fun fits => by omega, fun _ => by rw [fault], fun _ _ => rfl⟩
  | case3 state buffer nonempty count next asked ih =>
    -- What was taken is gone from the budget and from the buffer.
    rcases write_cases takes budget (by simpa using nonempty) asked with
      ⟨stopped, -⟩ | ⟨_, took, fits, rest⟩ | ⟨failed, -⟩ | ⟨took, -⟩
    · cases stopped
    · cases took
      exact (ih rest).after_took fits (b.took_le state buffer _ (congrArg Prod.fst asked))
    · cases failed
    · cases took
  | case4 state buffer nonempty next asked ih =>
    rcases write_cases takes budget (by simpa using nonempty) asked with
      ⟨-, rest⟩ | ⟨count, took, -⟩ | ⟨failed, -⟩ | ⟨took, -⟩
    · exact (ih rest).after_interrupted
    · cases took
    · cases failed
    · cases took
  | case5 state buffer nonempty fault next asked =>
    -- A sink that takes what fits fails only when nothing is left of the budget.
    rcases write_cases takes budget (by simpa using nonempty) asked with
      ⟨stopped, -⟩ | ⟨count, took, -⟩ | ⟨failed, exceeds, nothing⟩ | ⟨took, -⟩
    · cases stopped
    · cases took
    · cases failed
      refine ⟨fun fits => by omega, fun _ => rfl, fun _ accepts => ?_⟩
      rw [nothing accepts]
      rfl
    · cases took

/-! ### Runs of a writer on a budget -/

/-- What is true of a writer with a budgeted sink once it was handed this much text. -/
structure Tracks (b : Budget) (limit : Nat) (text : String) (writer : Writer State) : Prop where
  fits : text.utf8ByteSize ≤ limit →
    writer.fault = none ∧ writer.state.remaining = some (limit - text.utf8ByteSize)
  full : limit < text.utf8ByteSize → writer.fault = some b.fullFault
  taken : limit < text.utf8ByteSize → b.onFull ≠ .reject →
    writer.accepted = (Text.bytes text).take limit

theorem tracks_start (b : Budget) (limit calls : Nat) :
    b.Tracks limit "" { state := ⟨some limit, calls⟩ } :=
  ⟨fun _ => ⟨rfl, rfl⟩, fun exceeds => absurd exceeds (by simp),
    fun exceeds => absurd exceeds (by simp)⟩

theorem tracks_push {b : Budget} (takes : b.TakesSomething) {limit : Nat} {before : String}
    {writer : Writer State} (whole : writer.fault = none → writer.accepted = Text.bytes before)
    (tracks : b.Tracks limit before writer) (text : String) :
    b.Tracks limit (before ++ text) (writer.push b.sink text) := by
  have size := String.utf8ByteSize_append (s := before) (t := text)
  have length := Text.length_bytes before
  by_cases exceeds : limit < before.utf8ByteSize
  · -- The budget ran out before this text.
    have fault := tracks.full exceeds
    rw [Writer.push_of_fault _ _ _ (by rw [fault]; exact Option.some_ne_none _)]
    refine ⟨fun fits => by omega, fun _ => fault, fun _ accepts => ?_⟩
    rw [tracks.taken exceeds accepts, Text.bytes_append, List.take_append_of_le_length]
    omega
  obtain ⟨healthy, rest⟩ := tracks.fits (by omega)
  by_cases empty : text = ""
  · subst empty
    rw [Writer.push_empty, String.append_empty]
    exact tracks
  rw [Writer.push_of_healthy _ _ _ healthy empty]
  have cuts := writeAll_cuts takes (Text.bytes text) rest
  generalize b.sink.writeAll writer.state (Text.bytes text) = outcome at cuts
  obtain ⟨fits, full, taken⟩ := cuts
  rw [Text.length_bytes] at fits full taken
  refine ⟨fun all => ?_, fun cut => full (by omega), fun cut accepts => ?_⟩
  · obtain ⟨still, left⟩ := fits (by omega)
    refine ⟨still, left.trans ?_⟩
    congr 1
    omega
  · have front : (Text.bytes before).take limit = Text.bytes before :=
      List.take_of_length_le (by omega)
    change accepted (writer.calls ++ outcome.calls) = _
    rw [Writer.accepted_append, whole healthy, taken (by omega) accepts, Text.bytes_append,
      List.take_append, front, length]

theorem tracks_pushAll {b : Budget} (takes : b.TakesSomething) {limit : Nat} {start : State}
    {pieces : List String} {writer : Writer State}
    (follows : writer.Follows b.sink start pieces)
    (tracks : b.Tracks limit (String.join pieces) writer) (more : List String) :
    b.Tracks limit (String.join (pieces ++ more)) (writer.pushAll b.sink more) := by
  induction more generalizing pieces writer with
  | nil => simpa [Writer.pushAll] using tracks
  | cons text rest ih =>
    have next := tracks_push takes (fun healthy => (follows.whole healthy).1) tracks text
    have joined : String.join pieces ++ text = String.join (pieces ++ [text]) := by simp
    rw [joined] at next
    simpa [Writer.pushAll] using ih (Writer.follows_push follows text) next

/-- Only the text decides what a budgeted sink is left with, not the pieces it comes in. -/
theorem tracks_text {b : Budget} (takes : b.TakesSomething) (limit calls : Nat)
    (pieces : List String) :
    b.Tracks limit (String.join pieces)
      (Writer.pushAll b.sink { state := ⟨some limit, calls⟩ } pieces) :=
  tracks_pushAll takes (Writer.follows_start _ _) (tracks_start b limit calls) pieces

theorem accepted_text {b : Budget} (takes : b.TakesSomething) (accepts : b.onFull ≠ .reject)
    (limit calls : Nat) (pieces : List String) :
    (Writer.pushAll b.sink { state := ⟨some limit, calls⟩ } pieces).accepted =
      (Text.bytes (String.join pieces)).take limit := by
  have tracks := tracks_text takes limit calls pieces
  have follows := Writer.follows_pushAll (Writer.follows_start b.sink ⟨some limit, calls⟩) pieces
  by_cases exceeds : limit < (String.join pieces).utf8ByteSize
  · exact tracks.taken exceeds accepts
  · have fits : (String.join pieces).utf8ByteSize ≤ limit := by omega
    rw [List.take_of_length_le (by rw [Text.length_bytes]; exact fits)]
    exact (follows.whole (tracks.fits fits).1).1

/-- Writing to a budgeted sink succeeds exactly when the text fits the budget, and ends with the
fault of the mode otherwise. A sink that takes what fits accepts the front that the budget allows.
-/
theorem finish_eq_ok_iff_fits (b : Budget) (takes : b.TakesSomething) (pieces : List String)
    (limit calls : Nat) :
    let writer := Writer.pushAll b.sink { state := ⟨some limit, calls⟩ } pieces
    let text := String.join pieces
    (writer.finish = .ok () ↔ text.utf8ByteSize ≤ limit) ∧
      (text.utf8ByteSize ≤ limit → writer.accepted = Text.bytes text) ∧
      (limit < text.utf8ByteSize → writer.finish = .error b.fullFault) ∧
      (b.onFull ≠ .reject → writer.accepted = (Text.bytes text).take limit) := by
  intro writer text
  have tracks : b.Tracks limit text writer := tracks_text takes limit calls pieces
  have follows : writer.Follows b.sink ⟨some limit, calls⟩ pieces :=
    Writer.follows_pushAll (Writer.follows_start _ _) pieces
  refine ⟨?_, fun fits => (follows.whole (tracks.fits fits).1).1, ?_, ?_⟩
  · rw [Writer.finish_eq_ok_iff]
    refine ⟨fun healthy => ?_, fun fits => (tracks.fits fits).1⟩
    apply Nat.le_of_not_lt
    intro exceeds
    have fault := tracks.full exceeds
    rw [healthy] at fault
    cases fault
  · intro exceeds
    exact (Writer.finish_eq_error_iff writer _).mpr (tracks.full exceeds)
  · intro accepts
    exact accepted_text takes accepts limit calls pieces

/-- A file is written to a budgeted sink exactly when it fits the budget, whatever the chunks, the
interruptions and the mode. When it does not fit, a sink that takes what fits has taken the front
of the file that the budget allows, and it is the same front for all pieces of the same text. -/
theorem writeTo_eq_ok_iff_fits (b : Budget) (takes : b.TakesSomething) (file : File)
    (limit calls : Nat) :
    let start : State := ⟨some limit, calls⟩
    let writer := file.send b.sink start
    (file.writeTo b.sink start = .ok () ↔ file.render.utf8ByteSize ≤ limit) ∧
      (file.render.utf8ByteSize ≤ limit → writer.accepted = Text.bytes file.render) ∧
      (limit < file.render.utf8ByteSize → b.onFull ≠ .reject →
        writer.accepted = (Text.bytes file.render).take limit) ∧
      (limit < file.render.utf8ByteSize → b.onFull = .partially →
        file.writeTo b.sink start = .error (.incomplete b.fault)) ∧
      (limit < file.render.utf8ByteSize → b.onFull = .zero →
        file.writeTo b.sink start =
          .error (.incomplete ⟨.writeZero, "failed to write whole buffer"⟩)) ∧
      (b.onFull ≠ .reject → ∀ pieces, String.join pieces = file.render →
        (Writer.pushAll b.sink { state := start } pieces).accepted = writer.accepted) := by
  intro start writer
  obtain ⟨fits, whole, full, cut⟩ := finish_eq_ok_iff_fits b takes file.pieces limit calls
  have fails (exceeds : limit < file.render.utf8ByteSize) :
      file.writeTo b.sink start = .error (.incomplete b.fullFault) :=
    (file.writeTo_eq_error_iff _ _ _).mpr
      ⟨b.fullFault, rfl, (Writer.finish_eq_error_iff _ _).mp (full exceeds)⟩
  refine ⟨?_, whole, fun _ accepts => cut accepts, ?_, ?_, ?_⟩
  · rw [File.writeTo_eq_ok_iff, ← Writer.finish_eq_ok_iff]
    exact fits
  · intro exceeds mode
    rw [fails exceeds, fullFault, mode]
  · intro exceeds mode
    rw [fails exceeds, fullFault, mode]
    rfl
  · intro accepts pieces same
    rw [accepted_text takes accepts, same]
    exact (cut accepts).symm

/-- A file with a character of two bytes, the 38th and 39th of its text. -/
def accentedFile : File where
  package := "a"
  root := { head := { name := "é", createIfEmpty := true } }
  options := { banner := some "/**/" }

/-- Two bytes at most are taken at once, and every third call is interrupted. -/
def twoBytes : Budget where
  chunk := some 2
  period := 3
  onFull := .partially
  fault := ⟨.storageFull, "no space"⟩

theorem writeTo_accentedFile_inside_character :
    twoBytes.TakesSomething ∧
      38 < accentedFile.render.utf8ByteSize ∧
      (accentedFile.send twoBytes.sink ⟨some 38, 0⟩).accepted =
        Text.bytes "/**/\n\npackage a;\n\npublic final class " ++ [0xc3] ∧
      accentedFile.writeTo twoBytes.sink ⟨some 38, 0⟩ =
        .error (.incomplete ⟨.storageFull, "no space"⟩) := by
  have takes : twoBytes.TakesSomething := by
    rintro size ⟨⟩
    decide
  have exceeds : 38 < accentedFile.render.utf8ByteSize := by decide
  obtain ⟨-, -, cut, failed, -⟩ := writeTo_eq_ok_iff_fits _ takes accentedFile 38 0
  exact ⟨takes, exceeds, (cut exceeds (by decide)).trans rfl, failed exceeds rfl⟩

end JavaSource.Budget
