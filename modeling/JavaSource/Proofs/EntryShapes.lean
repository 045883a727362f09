import JavaSource.Options.Schema

/-!
# Which entries fit the shape of options

An entry fits if its key is one of the four and its value is of the type of that key. What an entry
is at fault with, and which bytes the fault is put at, is a matter of that entry alone.
-/
namespace JavaSource.Options

open Toml (Value Entry Table)

/-! ### Values of one type -/

theorem readString_eq_ok_iff (value : Value) (text : String) :
    readString value = .ok text ↔ value = .string text := by
  cases value <;> simp [readString]

theorem readString_eq_error_iff (value : Value) (cause : SchemaFault) :
    readString value = .error cause ↔
      (∀ text, value ≠ .string text) ∧ cause = wrongType value .text := by
  cases value <;> simp [readString, eq_comm]

theorem readBoolean_eq_ok_iff (value : Value) (flag : Bool) :
    readBoolean value = .ok flag ↔ value = .boolean flag := by
  cases value <;> simp [readBoolean]

theorem readBoolean_eq_error_iff (value : Value) (cause : SchemaFault) :
    readBoolean value = .error cause ↔
      (∀ flag, value ≠ .boolean flag) ∧ cause = wrongType value .boolean := by
  cases value <;> simp [readBoolean, eq_comm]

/-- Why a value is no byte: a number out of range, or no number of 64 bits at all. -/
inductive ByteFault : Value → SchemaFault → Prop where
  | outOfRange {number : Int} (range : ¬ (0 ≤ number ∧ number < 256))
      (fits : Width.fits 64 number = true) :
      ByteFault (.integer (some number)) (.outOfRange number)
  | notNumber {value : Value}
      (other : ∀ number, Width.fits 64 number = true → value ≠ .integer (some number)) :
      ByteFault value (wrongType value .byte)

theorem isUnsigned_eight_iff (number : Int) :
    Width.isUnsigned 8 number = true ↔ 0 ≤ number ∧ number < 256 := by
  simp [Width.isUnsigned]

theorem fits_of_isUnsigned_eight {number : Int} (range : Width.isUnsigned 8 number = true) :
    Width.fits 64 number = true := by
  rw [isUnsigned_eight_iff] at range
  have wide : Width.isUnsigned 64 number = true := by
    simp [Width.isUnsigned]
    omega
  simp [Width.fits, wide]

theorem readByte_eq_ok_iff (value : Value) (byte : UInt8) :
    readByte value = .ok byte ↔ value = .integer (some byte.toNat) := by
  constructor
  · intro fits
    unfold readByte at fits
    split at fits
    next number =>
      split at fits
      next range =>
        obtain ⟨low, high⟩ := (isUnsigned_eight_iff number).mp range
        cases fits
        rw [UInt8.toNat_ofNat', Nat.mod_eq_of_lt (by omega), Int.toNat_of_nonneg low]
      next => split at fits <;> cases fits
    next => cases fits
  · rintro rfl
    have range : Width.isUnsigned 8 byte.toNat = true := by
      rw [isUnsigned_eight_iff]
      have bound := byte.toNat_lt
      omega
    simp [readByte, range]

theorem readByte_eq_error_iff (value : Value) (cause : SchemaFault) :
    readByte value = .error cause ↔ ByteFault value cause := by
  constructor
  · intro failed
    unfold readByte at failed
    split at failed
    next number =>
      split at failed
      next => cases failed
      next outside =>
        rw [isUnsigned_eight_iff] at outside
        split at failed
        next fits =>
          cases failed
          exact .outOfRange outside fits
        next wide =>
          cases failed
          refine .notNumber fun other fits same => ?_
          cases same
          exact wide fits
    next other =>
      cases failed
      exact .notNumber fun number _ => other number
  · intro fault
    cases fault with
    | outOfRange range fits =>
      rw [← isUnsigned_eight_iff] at range
      simp [readByte, range, fits]
    | notNumber other =>
      -- A number that is no fault of range needs more than 64 bits.
      unfold readByte
      split
      next number =>
        have wide : ¬ Width.fits 64 number = true := fun fits => other number fits rfl
        have outside : ¬ Width.isUnsigned 8 number = true := fun range =>
          wide (fits_of_isUnsigned_eight range)
        rw [if_neg outside, if_neg wide]
      next => rfl

/-- Why a value is not empty. -/
inductive NothingFault : Value → SchemaFault → Prop where
  | table {first : Entry Value} {rest : Table} :
      NothingFault (.table (first :: rest)) .tableNotEmpty
  | array {first : Located Value} {rest : List (Located Value)} :
      NothingFault (.array (first :: rest)) .arrayNotEmpty
  | other {value : Value} (table : ∀ entries, value ≠ .table entries)
      (array : ∀ items, value ≠ .array items) : NothingFault value (.notTable value.kindName)

theorem readNothing_eq_ok_iff (value : Value) :
    readNothing value = .ok () ↔ value = .table [] ∨ value = .array [] := by
  cases value with
  | table entries => cases entries <;> simp [readNothing]
  | array items => cases items <;> simp [readNothing]
  | _ => simp [readNothing]

theorem readNothing_eq_error_iff (value : Value) (cause : SchemaFault) :
    readNothing value = .error cause ↔ NothingFault value cause := by
  constructor
  · intro failed
    unfold readNothing at failed
    split at failed
    · cases failed
    · cases failed
      exact .table
    · cases failed
    · cases failed
      exact .array
    next no_table no_entries no_array no_items =>
      cases failed
      refine .other (fun entries same => ?_) (fun items same => ?_)
      · cases entries with
        | nil => exact no_table same
        | cons first rest => exact no_entries first rest same
      · cases items with
        | nil => exact no_array same
        | cons first rest => exact no_items first rest same
  · intro fault
    cases fault with
    | table => rfl
    | array => rfl
    | other table array =>
      -- The two kinds that could be empty are excluded, and all others are named in the fault.
      cases value with
      | table entries => exact absurd rfl (table entries)
      | array items => exact absurd rfl (array items)
      | _ => rfl

theorem locate_eq_ok_iff {α : Type} (span : Span) (result : Except SchemaFault α) (value : α) :
    locate span result = .ok value ↔ result = .ok value := by
  cases result <;> simp [locate]

theorem locate_eq_error_iff {α : Type} (span : Span) (result : Except SchemaFault α)
    (mismatch : Mismatch) :
    locate span result = .error mismatch ↔
      ∃ cause, result = .error cause ∧ mismatch = ⟨cause, span⟩ := by
  cases result <;> simp [locate, eq_comm]

/-! ### The shape of an indentation -/

/-- The spellings of an indentation; the width need not be one of those that are supported. -/
inductive IndentShape : Value → Indent → Prop where
  | name : IndentShape (.string "tab") .tab
  | width {entry : Entry Value} {width : UInt8} (key : entry.key = "spaces")
      (value : entry.value = .integer (some width.toNat)) :
      IndentShape (.table [entry]) (.spaces width)
  | empty {entry : Entry Value} (key : entry.key = "tab")
      (value : entry.value = .table [] ∨ entry.value = .array []) :
      IndentShape (.table [entry]) .tab

/-- Why a value at a span is no indentation. A fault of the whole value is put at that span, a fault
of an entry inside it at the span of the entry or of its key. -/
inductive IndentFault : Value → Span → Mismatch → Prop where
  | missingWidth {span : Span} : IndentFault (.string "spaces") span ⟨.missingWidth, span⟩
  | unknownName {name : String} {span : Span} (tab : name ≠ "tab") (spaces : name ≠ "spaces") :
      IndentFault (.string name) span ⟨.unknownVariant name, span⟩
  | otherKind {value : Value} {span : Span} (string : ∀ text, value ≠ .string text)
      (table : ∀ entries, value ≠ .table entries) :
      IndentFault value span ⟨.notStringOrTable, span⟩
  | noEntry {span : Span} : IndentFault (.table []) span ⟨.noEntry, span⟩
  | manyEntries {first second : Entry Value} {rest : Table} {span : Span} :
      IndentFault (.table (first :: second :: rest)) span ⟨.manyEntries, span⟩
  | unknownKey {entry : Entry Value} {span : Span} (tab : entry.key ≠ "tab")
      (spaces : entry.key ≠ "spaces") :
      IndentFault (.table [entry]) span ⟨.unknownVariant entry.key, entry.keySpan⟩
  | width {entry : Entry Value} {span : Span} {cause : SchemaFault} (key : entry.key = "spaces")
      (fault : ByteFault entry.value cause) :
      IndentFault (.table [entry]) span ⟨cause, entry.span⟩
  | notEmpty {entry : Entry Value} {span : Span} {cause : SchemaFault} (key : entry.key = "tab")
      (fault : NothingFault entry.value cause) :
      IndentFault (.table [entry]) span ⟨cause, entry.span⟩

theorem readIndent_of_shape {value : Value} {indent : Indent} (shape : IndentShape value indent)
    (span : Span) : readIndent value span = .ok indent := by
  cases shape with
  | name => rfl
  | width key value =>
    simp [readIndent, key, (readByte_eq_ok_iff _ _).mpr value, locate, Except.map]
  | empty key value =>
    simp [readIndent, key, (readNothing_eq_ok_iff _).mpr value, locate, Except.map]

theorem readIndent_of_fault {value : Value} {span : Span} {mismatch : Mismatch}
    (fault : IndentFault value span mismatch) : readIndent value span = .error mismatch := by
  cases fault with
  | missingWidth => rfl
  | unknownName tab spaces => simp [readIndent, tab, spaces]
  | otherKind string table =>
    cases value with
    | string text => exact absurd rfl (string text)
    | table entries => exact absurd rfl (table entries)
    | _ => rfl
  | noEntry => rfl
  | manyEntries => rfl
  | unknownKey tab spaces => simp [readIndent, tab, spaces]
  | width key fault =>
    simp [readIndent, key, (readByte_eq_error_iff _ _).mpr fault, locate, Except.map]
  | notEmpty key fault =>
    simp [readIndent, key, (readNothing_eq_error_iff _ _).mpr fault, locate, Except.map]

/-- Every value either spells an indentation or has a fault, so the two lemmas above say all that
reading an indentation does. -/
theorem shape_or_fault (value : Value) (span : Span) :
    (∃ indent, IndentShape value indent) ∨ ∃ mismatch, IndentFault value span mismatch := by
  cases value with
  | string name =>
    by_cases tab : name = "tab"
    · subst tab
      exact .inl ⟨_, .name⟩
    · by_cases spaces : name = "spaces"
      · subst spaces
        exact .inr ⟨_, .missingWidth⟩
      · exact .inr ⟨_, .unknownName tab spaces⟩
  | table entries =>
    match entries with
    | [] => exact .inr ⟨_, .noEntry⟩
    | first :: second :: rest => exact .inr ⟨_, .manyEntries⟩
    | [entry] =>
      by_cases spaces : entry.key = "spaces"
      · cases read : readByte entry.value with
        | ok width => exact .inl ⟨_, .width spaces ((readByte_eq_ok_iff _ _).mp read)⟩
        | error cause => exact .inr ⟨_, .width spaces ((readByte_eq_error_iff _ _).mp read)⟩
      · by_cases tab : entry.key = "tab"
        · cases read : readNothing entry.value with
          | ok => exact .inl ⟨_, .empty tab ((readNothing_eq_ok_iff _).mp read)⟩
          | error cause => exact .inr ⟨_, .notEmpty tab ((readNothing_eq_error_iff _ _).mp read)⟩
        · exact .inr ⟨_, .unknownKey tab spaces⟩
  | _ => exact .inr ⟨_, .otherKind nofun nofun⟩

theorem readIndent_eq_ok_iff (value : Value) (span : Span) (indent : Indent) :
    readIndent value span = .ok indent ↔ IndentShape value indent := by
  refine ⟨fun read => ?_, fun shape => readIndent_of_shape shape span⟩
  rcases shape_or_fault value span with ⟨other, shape⟩ | ⟨mismatch, fault⟩
  · rw [readIndent_of_shape shape span] at read
    cases read
    exact shape
  · rw [readIndent_of_fault fault] at read
    cases read

theorem IndentShape.unique {value : Value} {first second : Indent} (here : IndentShape value first)
    (there : IndentShape value second) : first = second := by
  have read := readIndent_of_shape here ⟨0, 0⟩
  rw [readIndent_of_shape there] at read
  exact (Except.ok.inj read).symm

theorem readIndent_eq_error_iff (value : Value) (span : Span) (mismatch : Mismatch) :
    readIndent value span = .error mismatch ↔ IndentFault value span mismatch := by
  refine ⟨fun read => ?_, readIndent_of_fault⟩
  rcases shape_or_fault value span with ⟨indent, shape⟩ | ⟨other, fault⟩
  · rw [readIndent_of_shape shape span] at read
    cases read
  · rw [readIndent_of_fault fault] at read
    cases read
    exact fault

/-! ### The shape of an entry -/

/-- The keys that a document of options may have. -/
def keys : List String := ["package", "final-fields", "indent", "banner"]

theorem ofKey?_eq_none_iff (key : String) : Setting.ofKey? key = none ↔ key ∉ keys := by
  rw [Setting.ofKey?, List.find?_eq_none]
  simp [Setting.key, keys, eq_comm]

/-- What an entry that fits makes of a draft. -/
inductive Takes (draft : Draft) (entry : Entry Value) : Draft → Prop where
  | package {text : String} (key : entry.key = "package") (value : entry.value = .string text) :
      Takes draft entry { draft with package := some ⟨text, entry.span⟩ }
  | finalFields {flag : Bool} (key : entry.key = "final-fields")
      (value : entry.value = .boolean flag) : Takes draft entry { draft with finalFields := flag }
  | indent {indent : Indent} (key : entry.key = "indent") (shape : IndentShape entry.value indent) :
      Takes draft entry { draft with indent := some ⟨indent, entry.span⟩ }
  | banner {text : String} (key : entry.key = "banner") (value : entry.value = .string text) :
      Takes draft entry { draft with banner := some ⟨text, entry.span⟩ }

/-- What an entry that does not fit is at fault with. -/
inductive Faulty (entry : Entry Value) : Mismatch → Prop where
  | unknownKey (unknown : entry.key ∉ keys) : Faulty entry ⟨.unknownField entry.key, entry.keySpan⟩
  | notString (key : entry.key = "package" ∨ entry.key = "banner")
      (other : ∀ text, entry.value ≠ .string text) :
      Faulty entry ⟨wrongType entry.value .text, entry.span⟩
  | notBoolean (key : entry.key = "final-fields") (other : ∀ flag, entry.value ≠ .boolean flag) :
      Faulty entry ⟨wrongType entry.value .boolean, entry.span⟩
  | indent {mismatch : Mismatch} (key : entry.key = "indent")
      (fault : IndentFault entry.value entry.span mismatch) : Faulty entry mismatch

theorem map_eq_ok_iff {ε α β : Type} (f : α → β) (result : Except ε α) (value : β) :
    result.map f = .ok value ↔ ∃ given, result = .ok given ∧ f given = value := by
  cases result <;> simp [Except.map]

theorem map_eq_error_iff {ε α β : Type} (f : α → β) (result : Except ε α) (fault : ε) :
    result.map f = .error fault ↔ result = .error fault := by
  cases result <;> simp [Except.map]

theorem take_eq_ok_iff (draft next : Draft) (entry : Entry Value) :
    draft.take entry = .ok next ↔ Takes draft entry next := by
  constructor
  · intro taken
    unfold Draft.take at taken
    split at taken
    next => cases taken
    all_goals
      next found =>
        have key := (Setting.ofKey?_eq_some_iff _ _).mp found
        simp only [map_eq_ok_iff, locate_eq_ok_iff, readString_eq_ok_iff, readBoolean_eq_ok_iff,
          readIndent_eq_ok_iff] at taken
        obtain ⟨given, value, rfl⟩ := taken
        constructor
        · exact key.symm
        · exact value
  · intro takes
    cases takes with
    | package key value =>
      have found := (Setting.ofKey?_eq_some_iff _ .package).mpr key.symm
      simp [Draft.take, found, (readString_eq_ok_iff _ _).mpr value, locate, Except.map]
    | finalFields key value =>
      have found := (Setting.ofKey?_eq_some_iff _ .finalFields).mpr key.symm
      simp [Draft.take, found, (readBoolean_eq_ok_iff _ _).mpr value, locate, Except.map]
    | indent key shape =>
      have found := (Setting.ofKey?_eq_some_iff _ .indent).mpr key.symm
      simp [Draft.take, found, readIndent_of_shape shape, Except.map]
    | banner key value =>
      have found := (Setting.ofKey?_eq_some_iff _ .banner).mpr key.symm
      simp [Draft.take, found, (readString_eq_ok_iff _ _).mpr value, locate, Except.map]

theorem take_eq_error_iff (draft : Draft) (entry : Entry Value) (mismatch : Mismatch) :
    draft.take entry = .error mismatch ↔ Faulty entry mismatch := by
  constructor
  · intro failed
    unfold Draft.take at failed
    split at failed
    next unknown =>
      cases failed
      exact .unknownKey ((ofKey?_eq_none_iff _).mp unknown)
    next package =>
      rw [map_eq_error_iff, locate_eq_error_iff] at failed
      obtain ⟨cause, failed, rfl⟩ := failed
      obtain ⟨other, rfl⟩ := (readString_eq_error_iff _ _).mp failed
      exact .notString (.inl ((Setting.ofKey?_eq_some_iff _ _).mp package).symm) other
    next finalFields =>
      rw [map_eq_error_iff, locate_eq_error_iff] at failed
      obtain ⟨cause, failed, rfl⟩ := failed
      obtain ⟨other, rfl⟩ := (readBoolean_eq_error_iff _ _).mp failed
      exact .notBoolean ((Setting.ofKey?_eq_some_iff _ _).mp finalFields).symm other
    next indent =>
      rw [map_eq_error_iff, readIndent_eq_error_iff] at failed
      exact .indent ((Setting.ofKey?_eq_some_iff _ _).mp indent).symm failed
    next banner =>
      rw [map_eq_error_iff, locate_eq_error_iff] at failed
      obtain ⟨cause, failed, rfl⟩ := failed
      obtain ⟨other, rfl⟩ := (readString_eq_error_iff _ _).mp failed
      exact .notString (.inr ((Setting.ofKey?_eq_some_iff _ _).mp banner).symm) other
  · intro fault
    cases fault with
    | unknownKey unknown => simp [Draft.take, (ofKey?_eq_none_iff _).mpr unknown]
    | notString key other =>
      have failed := (readString_eq_error_iff _ _).mpr ⟨other, rfl⟩
      rcases key with package | banner
      · have found := (Setting.ofKey?_eq_some_iff _ .package).mpr package.symm
        simp [Draft.take, found, failed, locate, Except.map]
      · have found := (Setting.ofKey?_eq_some_iff _ .banner).mpr banner.symm
        simp [Draft.take, found, failed, locate, Except.map]
    | notBoolean key other =>
      have found := (Setting.ofKey?_eq_some_iff _ .finalFields).mpr key.symm
      have failed := (readBoolean_eq_error_iff _ _).mpr ⟨other, rfl⟩
      simp [Draft.take, found, failed, locate, Except.map]
    | indent key fault =>
      have found := (Setting.ofKey?_eq_some_iff _ .indent).mpr key.symm
      simp [Draft.take, found, readIndent_of_fault fault, Except.map]

/-- What one entry is at fault with does not depend on the entries before it. -/
theorem Faulty.unique {entry : Entry Value} {first second : Mismatch} (here : Faulty entry first)
    (there : Faulty entry second) : first = second := by
  have failed := (take_eq_error_iff {} entry first).mpr here
  rw [(take_eq_error_iff {} entry second).mpr there] at failed
  exact (Except.error.inj failed).symm

end JavaSource.Options
