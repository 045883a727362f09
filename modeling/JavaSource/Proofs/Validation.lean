import JavaSource.Options.Read
import JavaSource.Proofs.TableReading
import Mathlib.Data.List.TakeWhile

/-!
# Which values of options are valid

A package is valid unless it is blank, an indentation if its unit is supported, and a banner if it
is one block comment once the blanks around it are gone. The three are checked in this order, and
the first that is not valid is the fault.
-/
namespace JavaSource

/-- Trimming leaves nothing only where nothing but blanks was. -/
theorem Text.trimChars_eq_nil_iff (text : List Char) :
    trimChars text = [] ↔ ∀ c ∈ text, isBlank c = true := by
  rw [trimChars, trimEnd, List.reverse_eq_nil_iff, List.dropWhile_eq_nil_iff]
  constructor
  · intro blank
    -- What is left at the start begins with no blank, so nothing is left.
    rw [← List.dropWhile_eq_nil_iff]
    apply Classical.byContradiction
    intro some_left
    have visible := List.head_dropWhile_not isBlank some_left
    rw [blank _ (List.mem_reverse.mpr (List.head_mem some_left))] at visible
    cases visible
  · intro blank c member
    exact blank c (List.dropWhile_subset isBlank (List.mem_reverse.mp member))

namespace Options

open Toml (Value Entry Table)

/-! ### Block comments -/

/-- A text of at least four bytes that starts and ends with the marks of a comment, and has no
further end mark between the two. -/
structure IsSingleComment (text : String) : Prop where
  size : 4 ≤ text.utf8ByteSize
  starts : ['/', '*'] <+: text.toList
  ends : ['*', '/'] <:+ text.toList
  single : ∀ before after, text.toList ≠ ['/', '*'] ++ before ++ ['*', '/'] ++ after ++ ['*', '/']

/-- The marks of a text of four bytes do not overlap. -/
theorem exists_middle {text : String} (size : 4 ≤ text.utf8ByteSize)
    (starts : ['/', '*'] <+: text.toList) (ends : ['*', '/'] <:+ text.toList) :
    ∃ middle, text.toList = ['/', '*'] ++ middle ++ ['*', '/'] := by
  obtain ⟨rest, start⟩ := starts
  obtain ⟨front, finish⟩ := ends
  match front with
  | [] =>
    -- No text starts with a slash and an asterisk and is the closing mark.
    rw [← start] at finish
    cases finish
  | [c] =>
    -- The two marks share the asterisk.
    have short : text = String.ofList [c, '*', '/'] := by
      rw [← String.ofList_toList (s := text), ← finish]
      rfl
    rw [← start] at finish
    obtain ⟨rfl, -⟩ := List.cons.inj finish
    rw [short] at size
    exact absurd size (by decide)
  | c :: d :: middle =>
    rw [← start] at finish
    obtain ⟨rfl, same⟩ := List.cons.inj finish
    obtain ⟨rfl, rfl⟩ := List.cons.inj same
    exact ⟨middle, by rw [← start]; rfl⟩

theorem inside_marks (middle : List Char) :
    inside (['/', '*'] ++ middle ++ ['*', '/']) = middle := by
  simp [inside]

theorem isBlockComment_iff (text : String) :
    isBlockComment text = true ↔ IsSingleComment text := by
  simp only [isBlockComment, Bool.and_eq_true, decide_eq_true_eq, Bool.not_eq_true',
    List.isPrefixOf_iff_prefix, List.isSuffixOf_iff_suffix, and_assoc]
  constructor
  · rintro ⟨size, starts, ends, single⟩
    refine ⟨size, starts, ends, fun before after split => ?_⟩
    have shape : text.toList =
        ['/', '*'] ++ (before ++ ['*', '/'] ++ after) ++ ['*', '/'] := by
      rw [split]
      simp
    rw [shape, inside_marks] at single
    have found : Text.occurs commentEnd (before ++ ['*', '/'] ++ after) = true :=
      (Text.occurs_iff _ _).mpr ⟨before, after, rfl⟩
    rw [found] at single
    cases single
  · rintro ⟨size, starts, ends, single⟩
    refine ⟨size, starts, ends, ?_⟩
    obtain ⟨middle, shape⟩ := exists_middle size starts ends
    rw [shape, inside_marks, Bool.eq_false_iff]
    intro found
    obtain ⟨before, after, rfl⟩ := (Text.occurs_iff _ _).mp found
    -- An end mark inside would be one between the two marks of the comment.
    refine single before after ?_
    rw [shape]
    simp [commentEnd]

/-! ### One value -/

section Decided

variable {ε α : Type} {condition : Prop} [Decidable condition] (given value : α) (cause fault : ε)

theorem ite_eq_ok_iff :
    (if condition then Except.ok given else Except.error cause) = Except.ok value ↔
      condition ∧ value = given := by
  split <;> simp_all [eq_comm (a := given)]

theorem ite_eq_error_iff :
    (if condition then Except.ok given else Except.error cause) = Except.error fault ↔
      ¬ condition ∧ fault = cause := by
  split <;> simp_all [eq_comm (a := cause)]

end Decided

theorem isEmpty_trim_iff (text : String) :
    (Text.trim text).isEmpty = true ↔ ∀ c ∈ text.toList, Text.isBlank c = true := by
  rw [String.isEmpty_iff, ← String.toList_inj, Text.toList_trim]
  exact Text.trimChars_eq_nil_iff text.toList

theorem validPackage_eq (package : String) :
    validPackage package =
      if ¬ (Text.trim package).isEmpty = true then .ok (Text.trim package)
      else .error .emptyPackage := by
  simp only [validPackage, ite_not]

theorem validPackage_eq_ok_iff (package name : String) :
    validPackage package = .ok name ↔
      (∃ c ∈ package.toList, Text.isBlank c = false) ∧ name = Text.trim package := by
  rw [validPackage_eq, ite_eq_ok_iff, isEmpty_trim_iff]
  simp

theorem validPackage_eq_error_iff (package : String) (violation : Violation) :
    validPackage package = .error violation ↔
      (∀ c ∈ package.toList, Text.isBlank c = true) ∧ violation = .emptyPackage := by
  rw [validPackage_eq, ite_eq_error_iff, Classical.not_not, isEmpty_trim_iff]

/-- The indentations with a unit of their own. -/
def supported : List Indent := [.spaces 2, .spaces 4, .spaces 8, .tab]

theorem isSupported_iff (indent : Indent) : indent.isSupported = true ↔ indent ∈ supported := by
  cases indent with
  | tab => simp [Indent.isSupported, supported]
  | spaces width => simp [Indent.isSupported, supported, or_assoc]

theorem validIndent_eq_ok_iff (indent valid : Indent) :
    validIndent indent = .ok valid ↔ indent ∈ supported ∧ valid = indent := by
  rw [validIndent, ite_eq_ok_iff, isSupported_iff]

theorem validIndent_eq_error_iff (indent : Indent) (violation : Violation) :
    validIndent indent = .error violation ↔
      indent ∉ supported ∧ violation = .unsupportedIndent := by
  rw [validIndent, ite_eq_error_iff, isSupported_iff]

theorem validBanner_eq_ok_iff (banner text : String) :
    validBanner banner = .ok text ↔
      IsSingleComment (Text.trim banner) ∧ text = Text.trim banner := by
  rw [validBanner, ite_eq_ok_iff, isBlockComment_iff]

theorem validBanner_eq_error_iff (banner : String) (violation : Violation) :
    validBanner banner = .error violation ↔
      ¬ IsSingleComment (Text.trim banner) ∧ violation = .notBlockComment := by
  rw [validBanner, ite_eq_error_iff, isBlockComment_iff]

/-! ### The values of a draft -/

theorem check_eq_ok_iff {α : Type} (valid : α → Except Violation α) (given : Option (Located α))
    (checked : Option α) :
    check valid given = .ok checked ↔
      (given = none ∧ checked = none) ∨
        ∃ located value, given = some located ∧ valid located.value = .ok value ∧
          checked = some value := by
  cases given with
  | none => simp [check, eq_comm]
  | some located =>
    cases result : valid located.value <;> simp [check, result, eq_comm]

theorem check_eq_error_iff {α : Type} (valid : α → Except Violation α)
    (given : Option (Located α)) (fault : Located Violation) :
    check valid given = .error fault ↔
      ∃ located, given = some located ∧ valid located.value = .error fault.value ∧
        fault.span = located.span := by
  cases given with
  | none => simp [check]
  | some located =>
    cases fault
    cases result : valid located.value <;> simp [check, result, eq_comm]

theorem validate_eq_ok_iff (draft : Draft) (options : Options) :
    draft.validate = .ok options ↔
      check validPackage draft.package = .ok options.package ∧
        options.finalFields = draft.finalFields ∧
        (∃ indent, check validIndent draft.indent = .ok indent ∧
          options.indent = indent.getD .java) ∧
        check validBanner draft.banner = .ok options.banner := by
  unfold Draft.validate
  cases check validPackage draft.package with
  | error fault => simp [bind, Except.bind]
  | ok package =>
    cases check validIndent draft.indent with
    | error fault => simp [bind, Except.bind]
    | ok indent =>
      cases check validBanner draft.banner with
      | error fault => simp [bind, Except.bind]
      | ok banner =>
        cases options
        simp [bind, Except.bind, pure, Except.pure, eq_comm]

/-- The first check that fails decides. -/
theorem validate_eq_error_iff (draft : Draft) (fault : Located Violation) :
    draft.validate = .error fault ↔
      check validPackage draft.package = .error fault ∨
        (∃ package, check validPackage draft.package = .ok package) ∧
          (check validIndent draft.indent = .error fault ∨
            (∃ indent, check validIndent draft.indent = .ok indent) ∧
              check validBanner draft.banner = .error fault) := by
  unfold Draft.validate
  cases check validPackage draft.package with
  | error first => simp [bind, Except.bind]
  | ok package =>
    cases check validIndent draft.indent with
    | error first => simp [bind, Except.bind]
    | ok indent =>
      cases check validBanner draft.banner <;> simp [bind, Except.bind, pure, Except.pure]

/-! ### The value at a key -/

section Checking

variable {α : Type} {Reads : Value → α → Prop} {table : Table} {key : String}
  {given : Option (Located α)}

/-- An entry gives what a check makes of its value. -/
def Checked (Reads : Value → α → Prop) (valid : α → Except Violation α) (entry : Entry Value)
    (checked : Option α) : Prop :=
  ∃ value result, Reads entry.value value ∧ valid value = .ok result ∧ checked = some result

theorem check_eq_ok_iff_atKey
    (holds : AtKey table key none (Given Reads) given)
    (unique : ∀ {value first second}, Reads value first → Reads value second → first = second)
    (valid : α → Except Violation α)
    (checked : Option α) :
    check valid given = .ok checked ↔ AtKey table key none (Checked Reads valid) checked := by
  rw [check_eq_ok_iff]
  cases holds with
  | absent missing =>
    constructor
    · rintro (⟨-, rfl⟩ | ⟨_, _, absurd_given, -⟩)
      · exact .absent missing
      · cases absurd_given
    · intro documented
      cases documented with
      | absent => exact .inl ⟨rfl, rfl⟩
      | present found =>
        rw [missing] at found
        cases found
  | present found means =>
    obtain ⟨value, reads, rfl⟩ := means
    constructor
    · rintro (⟨absent, -⟩ | ⟨_, result, ⟨⟩, accepted, rfl⟩)
      · cases absent
      · exact .present found ⟨value, result, reads, accepted, rfl⟩
    · intro documented
      cases documented with
      | absent missing =>
        rw [missing] at found
        cases found
      | present again checked =>
        rw [found] at again
        cases again
        obtain ⟨other, result, same, accepted, rfl⟩ := checked
        rw [unique same reads] at accepted
        exact .inr ⟨_, result, rfl, accepted, rfl⟩

theorem check_eq_error_iff_lookup?
    (holds : AtKey table key none (Given Reads) given)
    (unique : ∀ {value first second}, Reads value first → Reads value second → first = second)
    (valid : α → Except Violation α)
    (fault : Located Violation) :
    check valid given = .error fault ↔
      ∃ entry value, Toml.lookup? table key = some entry ∧ Reads entry.value value ∧
        valid value = .error fault.value ∧ fault.span = entry.span := by
  rw [check_eq_error_iff]
  cases holds with
  | absent missing =>
    constructor
    · rintro ⟨_, absurd_given, -⟩
      cases absurd_given
    · rintro ⟨entry, _, found, -⟩
      rw [missing] at found
      cases found
  | present found means =>
    obtain ⟨value, reads, rfl⟩ := means
    constructor
    · rintro ⟨_, ⟨⟩, refused, span⟩
      exact ⟨_, value, found, reads, refused, span⟩
    · rintro ⟨entry, other, again, same, refused, span⟩
      rw [found] at again
      cases again
      rw [unique same reads] at refused
      exact ⟨_, rfl, refused, span⟩

end Checking

/-! ### A document -/

/-- Options are read if the text is a document, the document has the shape of options, and the
values in it are valid. -/
theorem read_eq_ok_iff (source : Source) (options : Options) :
    read source = .ok options ↔
      ∃ table draft, Toml.read? source.text = some table ∧ Draft.ofTable table = .ok draft ∧
        draft.validate = .ok options := by
  unfold read ofTable
  cases Toml.read? source.text with
  | none => simp
  | some table =>
    cases shape : Draft.ofTable table with
    | error mismatch => simp [shape]
    | ok draft => cases valid : draft.validate <;> simp [shape, valid]

end Options

end JavaSource
