import JavaSource.Sink.Basic

/-!
# Sinks with a budget

A budgeted sink takes at most a chunk of each buffer and at most a budget in all, and interrupts
every call whose number is a multiple of its period. When a chunk does not fit what is left of the
budget, it rejects the chunk, or takes what fits and fails once nothing does, or takes what fits
even if that is nothing.
-/
namespace JavaSource

inductive OnFull where
  | reject
  | partially
  | zero
  deriving DecidableEq, Repr

/-- Without a chunk size any number of bytes is taken at once, and a period of zero never
interrupts. A period of one would interrupt every call, so that no writing ends. -/
structure Budget where
  chunk : Option Nat := none
  period : Nat := 0
  period_ne_one : period ≠ 1 := by decide
  onFull : OnFull := .reject
  fault : Fault := ⟨.brokenPipe, "sink closed"⟩
  deriving DecidableEq, Repr

/-- What is left of the budget, if there is one, and the number of calls so far. -/
structure Budget.State where
  remaining : Option Nat := none
  calls : Nat := 0
  deriving DecidableEq, Repr

namespace Budget

/-- Whether the call with this number is interrupted. -/
def interrupts (b : Budget) (call : Nat) : Bool := b.period != 0 && call % b.period == 0

def wanted (b : Budget) (buffer : List UInt8) : Nat :=
  match b.chunk with
  | none => buffer.length
  | some size => min buffer.length size

def write (b : Budget) (state : State) (buffer : List UInt8) : Answer × State :=
  let calls := state.calls + 1
  if b.interrupts calls then (.interrupted, { state with calls })
  else
    match state.remaining with
    | none => (.took (b.wanted buffer), { state with calls })
    | some left =>
      if b.wanted buffer ≤ left then
        (.took (b.wanted buffer), ⟨some (left - b.wanted buffer), calls⟩)
      else if b.onFull = .reject ∨ (b.onFull = .partially ∧ left = 0) then
        (.failed b.fault, { state with calls })
      else (.took left, ⟨some 0, calls⟩)

theorem wanted_le (b : Budget) (buffer : List UInt8) : b.wanted buffer ≤ buffer.length := by
  unfold wanted
  split
  · exact Nat.le_refl _
  · exact Nat.min_le_left _ _

theorem took_le (b : Budget) (state : State) (buffer : List UInt8) (count : Nat)
    (took : (b.write state buffer).1 = .took count) : count ≤ buffer.length := by
  have bound := b.wanted_le buffer
  simp only [write] at took
  split at took
  · cases took
  · split at took
    · cases took
      exact bound
    · split at took
      · cases took
        exact bound
      · split at took
        · cases took
        · cases took
          omega

theorem interrupted_iff (b : Budget) (state : State) (buffer : List UInt8) :
    (b.write state buffer).1 = .interrupted ↔ b.interrupts (state.calls + 1) = true := by
  simp only [write]
  repeat' split
  all_goals simp_all

theorem calls_write (b : Budget) (state : State) (buffer : List UInt8) :
    (b.write state buffer).2.calls = state.calls + 1 := by
  simp only [write]
  repeat' split
  all_goals rfl

/-- Two numbers in a row are not both multiples of a period other than one. -/
theorem interrupts_succ (b : Budget) (call : Nat) (now : b.interrupts call = true) :
    b.interrupts (call + 1) = false := by
  simp only [interrupts, Bool.and_eq_true, bne_iff_ne, beq_iff_eq] at now
  have above : 1 < b.period := by
    have other := b.period_ne_one
    omega
  simp only [interrupts, Bool.and_eq_false_iff, beq_eq_false_iff_ne]
  right
  rw [Nat.add_mod, now.2, Nat.zero_add, Nat.mod_mod, Nat.mod_eq_of_lt above]
  exact Nat.one_ne_zero

/-- The budgeted sink; it interrupts at most once before another answer. -/
def sink (b : Budget) : Sink State where
  write := b.write
  patience := fun state _ => if b.interrupts (state.calls + 1) then 1 else 0
  took_le := b.took_le
  patience_lt := by
    intro state buffer stopped
    have now := (b.interrupted_iff state buffer).mp stopped
    simp only [b.calls_write, now, b.interrupts_succ _ now]
    exact Nat.one_pos

theorem neverTwice_sink (b : Budget) : b.sink.NeverTwice := by
  intro state first second stopped again
  have now := (b.interrupted_iff state first).mp stopped
  have next := (b.interrupted_iff (b.write state first).2 second).mp again
  rw [b.calls_write, b.interrupts_succ _ now] at next
  cases next

end Budget

end JavaSource
