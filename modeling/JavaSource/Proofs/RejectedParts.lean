import JavaSource.Proofs.BudgetCut

/-!
# Where a rejecting budget cuts the text

A sink that rejects what does not fit its budget is offered a text in parts: each piece on its own,
and a piece in blocks of the chunk size. It takes parts as long as the next one fits what is left,
and then the writing ends, so that a later part is not taken even if it would fit. Hence the parts
decide what is accepted, and interruptions do not.
-/
namespace JavaSource.Budget

/-! ### Parts of a text -/

/-- Consecutive blocks of a size; only the last one may be shorter. -/
def blocks {α : Type} (size : Nat) (items : List α) : List (List α) :=
  if 0 < size ∧ items ≠ [] then items.take size :: blocks size (items.drop size) else []
termination_by items.length
decreasing_by
  have length := List.length_pos_iff.mpr (by assumption : 0 < size ∧ items ≠ []).2
  rw [List.length_drop]
  omega

/-- The blocks in which one piece is offered. -/
def cut (b : Budget) (buffer : List UInt8) : List (List UInt8) :=
  match b.chunk with
  | none => if buffer = [] then [] else [buffer]
  | some size => blocks size buffer

/-- The parts in which a text is offered that comes in these pieces. -/
def parts (b : Budget) (pieces : List String) : List (List UInt8) :=
  (pieces.filter (· ≠ "")).flatMap (fun piece => b.cut (Text.bytes piece))

theorem cut_nil (b : Budget) : b.cut [] = [] := by
  unfold cut
  split
  · exact if_pos rfl
  · rw [blocks, if_neg (by simp)]

/-- The first block is what the sink wants of a buffer. -/
theorem cut_of_ne_nil {b : Budget} (takes : b.TakesSomething) {buffer : List UInt8}
    (nonempty : buffer ≠ []) :
    b.cut buffer = buffer.take (b.wanted buffer) :: b.cut (buffer.drop (b.wanted buffer)) := by
  cases chunk : b.chunk with
  | none => simp [cut, wanted, chunk, nonempty]
  | some size =>
    have positive : 0 < size := takes size chunk
    -- The last block is shorter when the buffer is.
    have wanted : b.wanted buffer = min size buffer.length := by
      simp [wanted, chunk, Nat.min_comm]
    simp only [cut, chunk, wanted]
    rw [blocks, if_pos ⟨positive, nonempty⟩, List.take_eq_take_min, List.drop_eq_drop_min]

theorem parts_append (b : Budget) (first second : List String) :
    b.parts (first ++ second) = b.parts first ++ b.parts second := by
  simp [parts]

/-! ### The parts that fit -/

/-- The parts up to the first that does not fit what is left of the limit. -/
def fitting (limit : Nat) : List (List UInt8) → List (List UInt8)
  | [] => []
  | part :: rest => if part.length ≤ limit then part :: fitting (limit - part.length) rest else []

theorem fitting_prefix_parts (limit : Nat) (parts : List (List UInt8)) :
    fitting limit parts <+: parts := by
  induction parts generalizing limit with
  | nil => exact List.prefix_refl []
  | cons part rest ih =>
    rw [fitting]
    split
    · exact (List.prefix_cons_inj part).mpr (ih _)
    · exact List.nil_prefix

theorem length_fitting (limit : Nat) (parts : List (List UInt8)) :
    (fitting limit parts).flatten.length ≤ limit := by
  induction parts generalizing limit with
  | nil => exact Nat.zero_le limit
  | cons part rest ih =>
    rw [fitting]
    split
    · have later := ih (limit - part.length)
      rw [List.flatten_cons, List.length_append]
      omega
    · exact Nat.zero_le limit

/-- No longer run of parts from the first on fits the limit. -/
theorem prefix_fitting {limit : Nat} {parts run : List (List UInt8)} (initial : run <+: parts)
    (fits : run.flatten.length ≤ limit) : run <+: fitting limit parts := by
  induction parts generalizing limit run with
  | nil => rwa [fitting]
  | cons part rest ih =>
    cases run with
    | nil => exact List.nil_prefix
    | cons first others =>
      -- The first part of the run is the first of all, and fits since the whole run does.
      obtain ⟨rfl, later⟩ := List.cons_prefix_cons.mp initial
      rw [List.flatten_cons, List.length_append] at fits
      rw [fitting, if_pos (by omega)]
      exact (List.prefix_cons_inj first).mpr (ih later (by omega))

theorem fitting_eq_self_iff {limit : Nat} {parts : List (List UInt8)} :
    fitting limit parts = parts ↔ parts.flatten.length ≤ limit := by
  constructor
  · intro all
    have fits := length_fitting limit parts
    rwa [all] at fits
  · intro fits
    exact (fitting_prefix_parts limit parts).eq_of_length_le
      (prefix_fitting (List.prefix_refl parts) fits).length_le

theorem fitting_append {limit : Nat} {first second : List (List UInt8)}
    (fits : first.flatten.length ≤ limit) :
    fitting limit (first ++ second) = first ++ fitting (limit - first.flatten.length) second := by
  induction first generalizing limit with
  | nil => rfl
  | cons part rest ih =>
    rw [List.flatten_cons, List.length_append] at fits ⊢
    rw [List.cons_append, fitting, if_pos (by omega), ih (by omega), List.cons_append,
      Nat.sub_sub]

theorem fitting_append_of_lt {limit : Nat} {first second : List (List UInt8)}
    (exceeds : limit < first.flatten.length) :
    fitting limit (first ++ second) = fitting limit first := by
  induction first generalizing limit with
  | nil => exact absurd exceeds (Nat.not_lt_zero limit)
  | cons part rest ih =>
    rw [List.flatten_cons, List.length_append] at exceeds
    rw [List.cons_append, fitting, fitting]
    split
    · rw [ih (by omega)]
    · rfl

/-! ### Writing one buffer -/

/-- What one call does to a budget that rejects: it is interrupted, takes the whole block, or fails
because the block does not fit. -/
theorem write_of_reject {b : Budget} (takes : b.TakesSomething) (mode : b.onFull = .reject)
    {state next : State} {left : Nat} {buffer : List UInt8} {answer : Answer}
    (budget : state.remaining = some left) (nonempty : buffer ≠ [])
    (asked : b.write state buffer = (answer, next)) :
    (answer = .interrupted ∧ next.remaining = some left) ∨
    (∃ count, answer = .took (count + 1) ∧ count + 1 = b.wanted buffer ∧ b.wanted buffer ≤ left ∧
      next.remaining = some (left - b.wanted buffer)) ∨
    (answer = .failed b.fault ∧ left < b.wanted buffer) := by
  have wanted := wanted_pos takes nonempty
  simp only [write, budget] at asked
  split at asked
  · obtain ⟨rfl, rfl⟩ := Prod.mk.inj asked
    exact .inl ⟨rfl, rfl⟩
  · split at asked
    next fits =>
      obtain ⟨rfl, rfl⟩ := Prod.mk.inj asked
      have restore : b.wanted buffer - 1 + 1 = b.wanted buffer := by omega
      exact .inr (.inl ⟨b.wanted buffer - 1, by rw [restore], restore, fits, rfl⟩)
    next exceeds =>
      rw [if_pos (.inl mode)] at asked
      obtain ⟨rfl, rfl⟩ := Prod.mk.inj asked
      exact .inr (.inr ⟨rfl, by omega⟩)

/-- What a rejecting sink is left with once it was offered these parts: it took those that fit, and
failed if that is not all of them. -/
structure TakesParts (b : Budget) (left : Nat) (parts : List (List UInt8)) (calls : List Call)
    (fault : Option Fault) (state : State) : Prop where
  accepted : JavaSource.accepted calls = (fitting left parts).flatten
  fault_eq : fault = if parts.flatten.length ≤ left then none else some b.fault
  rest : parts.flatten.length ≤ left →
    state.remaining = some (left - parts.flatten.length)

namespace TakesParts

variable {b : Budget} {left : Nat} {first second : List (List UInt8)} {calls more : List Call}
  {fault : Option Fault} {state final : State}

theorem nothing (budget : state.remaining = some left) : b.TakesParts left [] [] none state :=
  ⟨rfl, rfl, fun _ => budget⟩

/-- A part that fits is taken as a whole. -/
theorem one {buffer : List UInt8} {count : Nat} (whole : (buffer.take count).length = count)
    (fits : count ≤ left) (rest : state.remaining = some (left - count)) :
    b.TakesParts left [buffer.take count] [⟨buffer, .took count⟩] none state := by
  have length : [buffer.take count].flatten.length = count := by
    rw [List.flatten_singleton, whole]
  refine ⟨?_, ?_, fun _ => ?_⟩
  · rw [fitting_eq_self_iff.mpr (by omega)]
    rfl
  · rw [length, if_pos fits]
  · rw [length, rest]

/-- A part that does not fit is not taken, and no part after it is. -/
theorem failed {part buffer : List UInt8} (exceeds : left < part.length)
    (others : List (List UInt8)) :
    b.TakesParts left (part :: others) [⟨buffer, .failed b.fault⟩] (some b.fault) state := by
  have long : left < (part :: others).flatten.length := by
    rw [List.flatten_cons, List.length_append]
    omega
  refine ⟨?_, (if_neg (by omega)).symm, fun fits => by omega⟩
  rw [fitting, if_neg (by omega)]
  rfl

/-- Parts that all fit, and then others with what is left of the budget. -/
theorem append (fits : first.flatten.length ≤ left)
    (earlier : b.TakesParts left first calls none state)
    (later : b.TakesParts (left - first.flatten.length) second more fault final) :
    b.TakesParts left (first ++ second) (calls ++ more) fault final := by
  have length : (first ++ second).flatten.length =
      first.flatten.length + second.flatten.length := by simp
  refine ⟨?_, ?_, fun all => ?_⟩
  -- All first parts fit, so those that fit among all are the first and some of the second.
  · rw [JavaSource.accepted_append, earlier.accepted, later.accepted, fitting_append fits,
      fitting_eq_self_iff.mpr fits, List.flatten_append]
  · rw [later.fault_eq, length]
    congr 1
    exact propext (by omega)
  · rw [length] at all ⊢
    rw [later.rest (by omega), Nat.sub_sub]

/-- Once the budget is exceeded nothing more is taken. -/
theorem append_of_lt (exceeds : left < first.flatten.length)
    (earlier : b.TakesParts left first calls fault state) (second : List (List UInt8)) :
    b.TakesParts left (first ++ second) calls fault state := by
  have length : (first ++ second).flatten.length =
      first.flatten.length + second.flatten.length := by simp
  refine ⟨?_, ?_, fun all => by omega⟩
  · rw [earlier.accepted, fitting_append_of_lt exceeds]
  · rw [earlier.fault_eq, if_neg (by omega), if_neg (by omega)]

end TakesParts

theorem length_block (b : Budget) (buffer : List UInt8) :
    (buffer.take (b.wanted buffer)).length = b.wanted buffer := by
  rw [List.length_take]
  exact Nat.min_eq_left (b.wanted_le buffer)

theorem writeAll_takesParts {b : Budget} (takes : b.TakesSomething) (mode : b.onFull = .reject)
    {state : State} {left : Nat} (buffer : List UInt8) (budget : state.remaining = some left) :
    let outcome := b.sink.writeAll state buffer
    b.TakesParts left (b.cut buffer) outcome.calls outcome.fault outcome.state := by
  fun_induction Sink.writeAll b.sink state buffer generalizing left with
  | case1 state buffer empty =>
    rw [List.isEmpty_iff.mp empty, cut_nil]
    exact .nothing budget
  | case2 state buffer nonempty next asked =>
    -- No part is empty, and a part is taken as a whole.
    rcases write_of_reject takes mode budget (by simpa using nonempty) asked with
      ⟨stopped, -⟩ | ⟨count, took, -⟩ | ⟨failed, -⟩
    · cases stopped
    · cases took
    · cases failed
  | case3 state buffer nonempty count next asked ih =>
    -- The first part is taken, and the other parts are those of what is left of the buffer.
    rcases write_of_reject takes mode budget (by simpa using nonempty) asked with
      ⟨stopped, -⟩ | ⟨_, took, whole, fits, rest⟩ | ⟨failed, -⟩
    · cases stopped
    · cases took
      have block := b.length_block buffer
      rw [cut_of_ne_nil takes (by simpa using nonempty)]
      rw [← whole] at fits rest block ⊢
      have first := TakesParts.one (b := b) block fits rest
      exact first.append (by simpa [block] using fits) (ih (by simpa [block] using rest))
    · cases failed
  | case4 state buffer nonempty next asked ih =>
    -- An interruption offers no part, and the next call is for the same buffer.
    rcases write_of_reject takes mode budget (by simpa using nonempty) asked with
      ⟨-, rest⟩ | ⟨count, took, -⟩ | ⟨failed, -⟩
    · have interrupted : b.TakesParts left [] [⟨buffer, .interrupted⟩] none next :=
        ⟨rfl, rfl, fun _ => rest⟩
      exact interrupted.append (Nat.zero_le left) (ih rest)
    · cases took
    · cases failed
  | case5 state buffer nonempty fault next asked =>
    rcases write_of_reject takes mode budget (by simpa using nonempty) asked with
      ⟨stopped, -⟩ | ⟨count, took, -⟩ | ⟨failed, exceeds⟩
    · cases stopped
    · cases took
    · cases failed
      -- The first block is too long already, so no part fits.
      rw [cut_of_ne_nil takes (by simpa using nonempty)]
      exact .failed (by rwa [b.length_block]) _

/-! ### Runs of a writer -/

theorem takesParts_push {b : Budget} (takes : b.TakesSomething) (mode : b.onFull = .reject)
    {limit : Nat} {parts : List (List UInt8)} (writer : Writer State)
    (earlier : b.TakesParts limit parts writer.calls writer.fault writer.state) (text : String) :
    let after := writer.push b.sink text
    b.TakesParts limit (parts ++ b.parts [text]) after.calls after.fault after.state := by
  by_cases fits : parts.flatten.length ≤ limit
  · have healthy : writer.fault = none := by rw [earlier.fault_eq, if_pos fits]
    by_cases empty : text = ""
    · subst empty
      have none : b.parts [""] = [] := by simp [Budget.parts]
      rw [Writer.push_empty, none, List.append_nil]
      exact earlier
    · have one : b.parts [text] = b.cut (Text.bytes text) := by simp [Budget.parts, empty]
      have later := writeAll_takesParts takes mode (Text.bytes text) (earlier.rest fits)
      rw [Writer.push_of_healthy _ _ _ healthy empty, one]
      rw [healthy] at earlier
      exact earlier.append fits later
  -- The budget ran out before this text, which is dropped.
  · have faulty : writer.fault ≠ none := by
      rw [earlier.fault_eq, if_neg fits]
      exact Option.some_ne_none _
    rw [Writer.push_of_fault _ _ _ faulty]
    exact earlier.append_of_lt (Nat.lt_of_not_le fits) _

theorem takesParts_pushAll {b : Budget} (takes : b.TakesSomething) (mode : b.onFull = .reject)
    {limit : Nat} {parts : List (List UInt8)} (writer : Writer State)
    (earlier : b.TakesParts limit parts writer.calls writer.fault writer.state)
    (pieces : List String) :
    let after := writer.pushAll b.sink pieces
    b.TakesParts limit (parts ++ b.parts pieces) after.calls after.fault after.state := by
  induction pieces generalizing parts writer with
  | nil => simpa [Writer.pushAll, Budget.parts] using earlier
  | cons text rest ih =>
    have next := ih _ (takesParts_push takes mode writer earlier text)
    rw [List.append_assoc, ← parts_append] at next
    exact next

/-- The sink is left with the parts that fit, and writing fails if there are others. -/
theorem pushAll_of_reject {b : Budget} (takes : b.TakesSomething) (mode : b.onFull = .reject)
    (pieces : List String) (limit calls : Nat) :
    let writer := Writer.pushAll b.sink { state := ⟨some limit, calls⟩ } pieces
    writer.accepted = (fitting limit (b.parts pieces)).flatten ∧
      writer.finish =
        if fitting limit (b.parts pieces) = b.parts pieces then .ok () else .error b.fault := by
  intro writer
  have sent : b.TakesParts limit (b.parts pieces) writer.calls writer.fault writer.state :=
    takesParts_pushAll takes mode { state := ⟨some limit, calls⟩ } (.nothing rfl) pieces
  refine ⟨sent.accepted, ?_⟩
  split
  next all =>
    rw [Writer.finish_eq_ok_iff]
    exact sent.fault_eq.trans (if_pos (fitting_eq_self_iff.mp all))
  next some_left =>
    rw [Writer.finish_eq_error_iff]
    exact sent.fault_eq.trans (if_neg (mt fitting_eq_self_iff.mpr some_left))

/-- Neither the period nor the calls before decide anything, since the parts are the same. -/
theorem pushAll_period {b : Budget} (takes : b.TakesSomething) (mode : b.onFull = .reject)
    (pieces : List String) (limit calls started : Nat) {period : Nat} (ends : period ≠ 1) :
    let other := { b with period, period_ne_one := ends }
    let writer := Writer.pushAll b.sink { state := ⟨some limit, calls⟩ } pieces
    let again := Writer.pushAll other.sink { state := ⟨some limit, started⟩ } pieces
    again.accepted = writer.accepted ∧ again.finish = writer.finish := by
  intro other writer again
  have takes_again : other.TakesSomething := takes
  obtain ⟨accepted, result⟩ := pushAll_of_reject takes mode pieces limit calls
  obtain ⟨same, outcome⟩ := pushAll_of_reject takes_again mode pieces limit started
  exact ⟨same.trans accepted.symm, outcome.trans result.symm⟩

theorem accepted_prefix_of_le {b : Budget} (takes : b.TakesSomething) (mode : b.onFull = .reject)
    (pieces : List String) {limit more : Nat} (larger : limit ≤ more) (calls : Nat) :
    (Writer.pushAll b.sink { state := ⟨some limit, calls⟩ } pieces).accepted <+:
      (Writer.pushAll b.sink { state := ⟨some more, calls⟩ } pieces).accepted := by
  obtain ⟨accepted, -⟩ := pushAll_of_reject takes mode pieces limit calls
  obtain ⟨further, -⟩ := pushAll_of_reject takes mode pieces more calls
  -- A run that fits the smaller limit fits the larger one.
  have fits := Nat.le_trans (length_fitting limit (b.parts pieces)) larger
  obtain ⟨rest, split⟩ := prefix_fitting (fitting_prefix_parts limit (b.parts pieces)) fits
  rw [accepted, further, ← split, List.flatten_append]
  exact List.prefix_append _ _

/-! ### Blocks of one byte -/

theorem blocks_one {α : Type} (items : List α) : blocks 1 items = items.map ([·]) := by
  induction items with
  | nil => rw [blocks, if_neg (by simp), List.map_nil]
  | cons a rest ih =>
    rw [blocks, if_pos ⟨Nat.one_pos, List.cons_ne_nil a rest⟩, List.drop_one, List.tail_cons, ih]
    rfl

theorem parts_of_chunk_one {b : Budget} (chunk : b.chunk = some 1) (pieces : List String) :
    b.parts pieces = (Text.bytes (String.join pieces)).map ([·]) := by
  induction pieces with
  | nil => simp [parts]
  | cons piece rest ih =>
    have first : b.parts [piece] = (Text.bytes piece).map ([·]) := by
      by_cases empty : piece = ""
      · simp [parts, empty]
      · simp [parts, empty, cut, chunk, blocks_one]
    have split : b.parts (piece :: rest) = b.parts [piece] ++ b.parts rest :=
      b.parts_append [piece] rest
    rw [split, first, ih, String.join_cons, Text.bytes_append, List.map_append]

theorem fitting_singletons (limit : Nat) (bytes : List UInt8) :
    fitting limit (bytes.map ([·])) = (bytes.take limit).map ([·]) := by
  induction bytes generalizing limit with
  | nil => simp [fitting]
  | cons byte rest ih =>
    cases limit with
    | zero => rfl
    | succ limit =>
      rw [List.map_cons, fitting, if_pos (by simp), List.take_succ_cons, List.map_cons, ← ih]
      rfl

theorem length_accepted_of_chunk_one {b : Budget} (chunk : b.chunk = some 1)
    (mode : b.onFull = .reject) (pieces : List String) (limit calls : Nat) :
    (Writer.pushAll b.sink { state := ⟨some limit, calls⟩ } pieces).accepted.length =
      min limit (String.join pieces).utf8ByteSize := by
  have takes : b.TakesSomething := by
    intro size found
    rw [chunk] at found
    cases found
    exact Nat.le_refl 1
  obtain ⟨accepted, -⟩ := pushAll_of_reject takes mode pieces limit calls
  rw [accepted, parts_of_chunk_one chunk, fitting_singletons, ← List.flatMap_def,
    List.flatMap_singleton', List.length_take, Text.length_bytes]

/-! ### Files -/

/-- A sink that rejects what does not fit accepts the longest run of parts, from the first on, that
fits its budget, and the file is written exactly when that is all parts. Neither depends on its
interruptions. A larger budget accepts no less, and blocks of one byte use all of the budget. -/
theorem accepted_eq_fitting (b : Budget) (takes : b.TakesSomething) (mode : b.onFull = .reject)
    (file : File) (limit calls : Nat) :
    let start : State := ⟨some limit, calls⟩
    let writer := file.send b.sink start
    let parts := b.parts file.pieces
    let run := fitting limit parts
    writer.accepted = run.flatten ∧
      (run <+: parts ∧ run.flatten.length ≤ limit ∧
        ∀ longer, longer <+: parts → longer.flatten.length ≤ limit → longer <+: run) ∧
      (file.writeTo b.sink start = .ok () ↔ run = parts) ∧
      (run ≠ parts → file.writeTo b.sink start = .error (.incomplete b.fault)) ∧
      (∀ period started, (ends : period ≠ 1) →
        let other := { b with period, period_ne_one := ends }
        (file.send other.sink ⟨some limit, started⟩).accepted = writer.accepted ∧
        file.writeTo other.sink ⟨some limit, started⟩ = file.writeTo b.sink start) ∧
      (∀ more, limit ≤ more →
        writer.accepted <+: (file.send b.sink ⟨some more, calls⟩).accepted) ∧
      (b.chunk = some 1 → writer.accepted.length = min limit file.render.utf8ByteSize) := by
  intro start writer parts run
  obtain ⟨accepted, result⟩ := pushAll_of_reject takes mode file.pieces limit calls
  have finish : writer.finish = if run = parts then .ok () else .error b.fault := result
  refine ⟨accepted, ⟨fitting_prefix_parts limit parts, length_fitting limit parts,
    fun longer => prefix_fitting⟩, ?_, ?_, ?_, ?_, ?_⟩
  · rw [File.writeTo_eq_ok_iff, ← Writer.finish_eq_ok_iff]
    change writer.finish = .ok () ↔ run = parts
    rw [finish]
    split
    next all => exact iff_of_true rfl all
    next some_left => exact iff_of_false (fun ok => nomatch ok) some_left
  · intro some_left
    rw [if_neg some_left, Writer.finish_eq_error_iff] at finish
    exact (file.writeTo_eq_error_iff b.sink start _).mpr ⟨b.fault, rfl, finish⟩
  · intro period started ends other
    obtain ⟨same, outcome⟩ := pushAll_period takes mode file.pieces limit calls started ends
    exact ⟨same, congrArg (Except.mapError Error.incomplete) outcome⟩
  · intro more larger
    exact accepted_prefix_of_le takes mode file.pieces larger calls
  · intro chunk
    exact length_accepted_of_chunk_one chunk mode file.pieces limit calls

/-- Every fourth call of its sink is interrupted. -/
def pausing : Budget where
  period := 4

/-- The word before the package does not fit, so the package is not taken, though it would fit. -/
theorem writeTo_accentedFile_rejected :
    pausing.TakesSomething ∧ pausing.onFull = .reject ∧
      (accentedFile.send pausing.sink ⟨some 8, 0⟩).accepted = Text.bytes "/**/\n\n" ∧
      accentedFile.writeTo pausing.sink ⟨some 8, 0⟩ =
        .error (.incomplete ⟨.brokenPipe, "sink closed"⟩) := by
  have takes : pausing.TakesSomething := by
    rintro size ⟨⟩
  obtain ⟨accepted, -, -, failed, -⟩ := accepted_eq_fitting pausing takes rfl accentedFile 8 0
  exact ⟨takes, rfl, accepted.trans rfl, failed (by decide)⟩

end JavaSource.Budget
