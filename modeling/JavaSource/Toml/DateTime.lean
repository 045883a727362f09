import JavaSource.Text.Numeral

/-!
# Dates and times

A date is a day of the calendar, a time has hours, minutes and optional seconds with an optional
fraction, and a date with a time may have an offset from universal time. Only the form is checked;
nothing here computes with a date.
-/
namespace JavaSource.Toml.DateTime

/-- The value of decimal digits, no more and no fewer than are given. -/
def field? (text : List Char) : Option Nat := Text.ofDigits? 10 text

def isLeapYear (year : Nat) : Bool := year % 4 == 0 && (year % 100 != 0 || year % 400 == 0)

def daysInMonth (year month : Nat) : Nat :=
  if month = 2 then (if isLeapYear year then 29 else 28)
  else if month = 4 ∨ month = 6 ∨ month = 9 ∨ month = 11 then 30
  else 31

/-- Reads a date and returns what follows it. -/
def date? : List Char → Option (List Char)
  | y₁ :: y₂ :: y₃ :: y₄ :: '-' :: m₁ :: m₂ :: '-' :: d₁ :: d₂ :: rest => do
    let year ← field? [y₁, y₂, y₃, y₄]
    let month ← field? [m₁, m₂]
    let day ← field? [d₁, d₂]
    if 1 ≤ month ∧ month ≤ 12 ∧ 1 ≤ day ∧ day ≤ daysInMonth year month then some rest else none
  | _ => none

/-- Reads hours and minutes, and returns what follows them. -/
def clock? (lastHour : Nat) : List Char → Option (List Char)
  | h₁ :: h₂ :: ':' :: m₁ :: m₂ :: rest => do
    let hour ← field? [h₁, h₂]
    let minute ← field? [m₁, m₂]
    if hour ≤ lastHour ∧ minute ≤ 59 then some rest else none
  | _ => none

/-- A fraction has a digit after its point. -/
def fraction? : List Char → Option (List Char)
  | '.' :: rest =>
    let digits := rest.takeWhile Char.isDigit
    if digits.isEmpty then none else some (rest.drop digits.length)
  | rest => some rest

/-- Reads a time of day; a minute may have a sixty-first second. -/
def time? (text : List Char) : Option (List Char) := do
  match ← clock? 23 text with
  | ':' :: s₁ :: s₂ :: rest =>
    let second ← field? [s₁, s₂]
    if second ≤ 60 then fraction? rest else none
  | rest => some rest

def isOffset : List Char → Bool
  | ['Z'] => true
  | ['z'] => true
  | '+' :: rest => clock? 23 rest == some []
  | '-' :: rest => clock? 23 rest == some []
  | _ => false

/-- What may follow a date: nothing, or a time with or without an offset. -/
def followsDate : List Char → Bool
  | [] => true
  | mark :: rest =>
    (mark == 'T' || mark == 't' || mark == ' ') &&
      match time? rest with
      | some tail => tail.isEmpty || isOffset tail
      | none => false

def isDateTime (text : List Char) : Bool :=
  time? text == some [] ||
    match date? text with
    | some rest => followsDate rest
    | none => false

end JavaSource.Toml.DateTime
