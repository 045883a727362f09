import JavaSource.Proofs.ByteOrder
import JavaSource.Proofs.Validation
import Mathlib

/-!
# Which fault is reported

A document can have many faults at once; only one is reported. Faults of the schema come before
violations. Among the former the least key in byte order decides, among the latter the order of the
checks. So the order in which the entries are written never matters, and the error that is reported
is the one that its entry has on its own.
-/
namespace JavaSource.Options

open Toml (Value Entry Table DistinctKeys)

/-- What the value of an entry is not valid with, though it is of the right type. -/
inductive Violates (entry : Entry Value) : Violation → Prop where
  | emptyPackage {text : String} (key : entry.key = "package") (value : entry.value = .string text)
      (blank : ∀ c ∈ text.toList, Text.isBlank c = true) : Violates entry .emptyPackage
  | unsupportedIndent {indent : Indent} (key : entry.key = "indent")
      (shape : IndentShape entry.value indent) (unknown : indent ∉ supported) :
      Violates entry .unsupportedIndent
  | notBlockComment {text : String} (key : entry.key = "banner")
      (value : entry.value = .string text) (other : ¬ IsSingleComment (Text.trim text)) :
      Violates entry .notBlockComment

/-- The keys whose values are checked, in the order of the checks. -/
def checkedKeys : List String := ["package", "indent", "banner"]

/-- The spans of an entry: those of its key and its value, and of the keys and values in it. -/
inductive SpanOf (entry : Entry Value) : Span → Prop where
  | key : SpanOf entry entry.keySpan
  | value : SpanOf entry entry.span
  | innerKey {entries : Table} {inner : Entry Value} (table : entry.value = .table entries)
      (member : inner ∈ entries) : SpanOf entry inner.keySpan
  | innerValue {entries : Table} {inner : Entry Value} (table : entry.value = .table entries)
      (member : inner ∈ entries) : SpanOf entry inner.span

def IsFaulty (entry : Entry Value) : Prop := ∃ mismatch, Faulty entry mismatch

def IsInvalid (entry : Entry Value) : Prop := ∃ violation, Violates entry violation

/-- What is answered to a table. -/
structure Answers (source : Source) (table : Table) (answer : Except Error Options) : Prop where
  /-- Of the entries with a fault of the schema, the one of the least key is reported. -/
  schema : (∃ entry ∈ table, IsFaulty entry) →
    ∃ entry ∈ table, ∃ mismatch, Faulty entry mismatch ∧
      (∀ other ∈ table, IsFaulty other → Text.bytes entry.key ≤ Text.bytes other.key) ∧
      answer = .error (.parse source (.schema mismatch.cause mismatch.span))
  /-- Where there is none, the first value that is not valid is reported. -/
  validation : (∀ entry ∈ table, ¬ IsFaulty entry) → (∃ entry ∈ table, IsInvalid entry) →
    ∃ entry ∈ table, ∃ violation before after, Violates entry violation ∧
      checkedKeys = before ++ entry.key :: after ∧
      (∀ other ∈ table, other.key ∈ before → ¬ IsInvalid other) ∧
      answer = .error (.validation source violation.message entry.span)
  accepted : (∀ entry ∈ table, ¬ IsFaulty entry) → (∀ entry ∈ table, ¬ IsInvalid entry) →
    ∃ options, answer = .ok options

/-- An error that is one entry's own: it is reported if there is no other entry, and every span in
it is one of this entry. -/
structure IsOwn (source : Source) (entry : Entry Value) (error : Error) : Prop where
  alone : ofTable source [entry] = .error error
  spans : ∃ span, SpanOf entry span ∧ error.span? = some span ∧
    ∀ label ∈ error.labels, label.span = span

/-! ### Faults of the schema -/

/-- A fault of the schema is put inside its entry. -/
theorem Faulty.spanOf {entry : Entry Value} {mismatch : Mismatch} (faulty : Faulty entry mismatch) :
    SpanOf entry mismatch.span := by
  cases faulty with
  | unknownKey => exact .key
  | notString => exact .value
  | notBoolean => exact .value
  | indent key fault =>
    -- The fault is indexed by the value and the span, which have to be variables to split on it.
    generalize shape : entry.value = value at fault
    generalize here : entry.span = span at fault
    cases fault with
    | missingWidth | unknownName | otherKind | noEntry | manyEntries =>
      rw [← here]
      exact .value
    | unknownKey => exact .innerKey shape List.mem_cons_self
    | width | notEmpty => exact .innerValue shape List.mem_cons_self

/-! ### Violations -/

/-- The entry at a key is not valid, and its fault is put at its value. -/
def RefusedAt (table : Table) (key : String) (fault : Located Violation) : Prop :=
  ∃ entry ∈ table, entry.key = key ∧ Violates entry fault.value ∧ fault.span = entry.span

/-- Checking the value at a key fails exactly if the entry there violates what the check asks. -/
theorem check_eq_error_iff_refusedAt {α : Type} {Reads : Value → α → Prop} {table : Table}
    {key : String} {given : Option (Located α)} {valid : α → Except Violation α}
    (distinct : DistinctKeys table) (holds : AtKey table key none (Given Reads) given)
    (unique : ∀ {value first second}, Reads value first → Reads value second → first = second)
    (violates : ∀ entry, entry.key = key → ∀ violation, Violates entry violation ↔
      ∃ value, Reads entry.value value ∧ valid value = .error violation)
    (fault : Located Violation) :
    check valid given = .error fault ↔ RefusedAt table key fault := by
  rw [check_eq_error_iff_lookup? holds unique]
  constructor
  · rintro ⟨entry, value, found, reads, refused, span⟩
    obtain ⟨member, here⟩ := (Toml.lookup?_eq_some_iff distinct key entry).mp found
    exact ⟨entry, member, here, (violates entry here _).mpr ⟨value, reads, refused⟩, span⟩
  · rintro ⟨entry, member, here, invalid, span⟩
    obtain ⟨value, reads, refused⟩ := (violates entry here _).mp invalid
    exact ⟨entry, value, (Toml.lookup?_eq_some_iff distinct key entry).mpr ⟨member, here⟩, reads,
      refused, span⟩

/-- The key whose value a violation is about. -/
def Violation.key : Violation → String
  | .emptyPackage => "package"
  | .unsupportedIndent => "indent"
  | .notBlockComment => "banner"

theorem Violation.key_injective {first second : Violation} (same : first.key = second.key) :
    first = second := by
  cases first <;> cases second <;> first | rfl | exact absurd same (by decide)

theorem Violates.key_eq {entry : Entry Value} {violation : Violation}
    (violates : Violates entry violation) : entry.key = violation.key := by
  cases violates with
  | emptyPackage key | unsupportedIndent key | notBlockComment key => exact key

theorem Violates.key_mem {entry : Entry Value} {violation : Violation}
    (violates : Violates entry violation) : entry.key ∈ checkedKeys := by
  rw [violates.key_eq]
  cases violation <;> decide

/-- An entry can be invalid in one way only. -/
theorem Violates.unique {entry : Entry Value} {first second : Violation}
    (here : Violates entry first) (there : Violates entry second) : first = second :=
  Violation.key_injective (here.key_eq.symm.trans there.key_eq)

/-- A check that can fail in one way fails on the values of its key that are refused. -/
theorem violates_iff_refused {α : Type} {Reads : Value → α → Prop} {Refused : α → Prop}
    {valid : α → Except Violation α} {fault : Violation}
    (refuses : ∀ value violation, valid value = .error violation ↔
      Refused value ∧ violation = fault)
    (violates : ∀ entry : Entry Value, entry.key = fault.key →
      (Violates entry fault ↔ ∃ value, Reads entry.value value ∧ Refused value))
    (entry : Entry Value) (here : entry.key = fault.key) (violation : Violation) :
    Violates entry violation ↔
      ∃ value, Reads entry.value value ∧ valid value = .error violation := by
  simp only [refuses]
  constructor
  · intro invalid
    obtain rfl : violation = fault := Violation.key_injective (invalid.key_eq.symm.trans here)
    obtain ⟨value, reads, refused⟩ := (violates entry here).mp invalid
    exact ⟨value, reads, refused, rfl⟩
  · rintro ⟨value, reads, refused, rfl⟩
    exact (violates entry here).mpr ⟨value, reads, refused⟩

theorem violates_package_iff (entry : Entry Value) (here : entry.key = "package")
    (violation : Violation) :
    Violates entry violation ↔
      ∃ text, IsText entry.value text ∧ validPackage text = .error violation := by
  refine violates_iff_refused validPackage_eq_error_iff (fun _ key => ⟨?_, ?_⟩) entry here violation
  · rintro (⟨_, value, blank⟩ | _ | _)
    exact ⟨_, value, blank⟩
  · rintro ⟨_, value, blank⟩
    exact .emptyPackage key value blank

theorem violates_indent_iff (entry : Entry Value) (here : entry.key = "indent")
    (violation : Violation) :
    Violates entry violation ↔
      ∃ indent, IndentShape entry.value indent ∧ validIndent indent = .error violation := by
  refine violates_iff_refused validIndent_eq_error_iff (fun _ key => ⟨?_, ?_⟩) entry here violation
  · rintro (_ | ⟨_, shape, unknown⟩ | _)
    exact ⟨_, shape, unknown⟩
  · rintro ⟨_, shape, unknown⟩
    exact .unsupportedIndent key shape unknown

theorem violates_banner_iff (entry : Entry Value) (here : entry.key = "banner")
    (violation : Violation) :
    Violates entry violation ↔
      ∃ text, IsText entry.value text ∧ validBanner text = .error violation := by
  refine violates_iff_refused validBanner_eq_error_iff (fun _ key => ⟨?_, ?_⟩) entry here violation
  · rintro (_ | _ | ⟨_, value, other⟩)
    exact ⟨_, value, other⟩
  · rintro ⟨_, value, other⟩
    exact .notBlockComment key value other

section Draft

variable {table : Table} {draft : Draft} (distinct : DistinctKeys table) (holds : draft.Holds table)

include distinct holds

theorem check_package_eq_error_iff (fault : Located Violation) :
    check validPackage draft.package = .error fault ↔ RefusedAt table "package" fault :=
  check_eq_error_iff_refusedAt distinct holds.package isText_unique violates_package_iff fault

theorem check_indent_eq_error_iff (fault : Located Violation) :
    check validIndent draft.indent = .error fault ↔ RefusedAt table "indent" fault :=
  check_eq_error_iff_refusedAt distinct holds.indent IndentShape.unique violates_indent_iff fault

theorem check_banner_eq_error_iff (fault : Located Violation) :
    check validBanner draft.banner = .error fault ↔ RefusedAt table "banner" fault :=
  check_eq_error_iff_refusedAt distinct holds.banner isText_unique violates_banner_iff fault

/-- The fault of a draft is that of the first key, in the order of the checks, whose entry is not
valid. -/
theorem exists_refusedAt_of_validate {fault : Located Violation}
    (failed : draft.validate = .error fault) :
    ∃ before key after, checkedKeys = before ++ key :: after ∧ RefusedAt table key fault ∧
      ∀ other ∈ before, ∀ earlier, ¬ RefusedAt table other earlier := by
  have package_fits {name : Option String} (checked : check validPackage draft.package = .ok name)
      (earlier : Located Violation) : ¬ RefusedAt table "package" earlier := by
    rw [← check_package_eq_error_iff distinct holds, checked]
    nofun
  have indent_fits {unit : Option Indent} (checked : check validIndent draft.indent = .ok unit)
      (earlier : Located Violation) : ¬ RefusedAt table "indent" earlier := by
    rw [← check_indent_eq_error_iff distinct holds, checked]
    nofun
  -- One case for each check, with the checks before it passed.
  rcases (validate_eq_error_iff draft fault).mp failed with
    package | ⟨⟨_, package⟩, indent | ⟨⟨_, indent⟩, banner⟩⟩
  · exact ⟨[], "package", ["indent", "banner"], rfl,
      (check_package_eq_error_iff distinct holds fault).mp package, nofun⟩
  · refine ⟨["package"], "indent", ["banner"], rfl,
      (check_indent_eq_error_iff distinct holds fault).mp indent, ?_⟩
    simpa using package_fits package
  · refine ⟨["package", "indent"], "banner", [], rfl,
      (check_banner_eq_error_iff distinct holds fault).mp banner, ?_⟩
    simpa using ⟨package_fits package, indent_fits indent⟩

/-- Where validation succeeds, no entry is invalid. -/
theorem not_isInvalid_of_validate {options : Options} (valid : draft.validate = .ok options) :
    ∀ entry ∈ table, ¬ IsInvalid entry := by
  rintro entry member ⟨violation, violates⟩
  obtain ⟨package, -, ⟨_, indent, -⟩, banner⟩ := (validate_eq_ok_iff draft options).mp valid
  -- Only checked keys can be invalid, and all three checks passed.
  have key := violates.key_mem
  simp only [checkedKeys, List.mem_cons, List.not_mem_nil, or_false] at key
  have refused {name : String} (here : entry.key = name) :
      RefusedAt table name ⟨violation, entry.span⟩ := ⟨entry, member, here, violates, rfl⟩
  rcases key with here | here | here
  · rw [(check_package_eq_error_iff distinct holds _).mpr (refused here)] at package
    cases package
  · rw [(check_indent_eq_error_iff distinct holds _).mpr (refused here)] at indent
    cases indent
  · rw [(check_banner_eq_error_iff distinct holds _).mpr (refused here)] at banner
    cases banner

end Draft

/-! ### The whole table -/

theorem exists_draft {table : Table} (fit : ∀ entry ∈ table, ¬ IsFaulty entry) :
    ∃ draft, Draft.ofTable table = .ok draft :=
  (exists_ofTable_iff table).mpr fun entry member mismatch fault =>
    fit entry member ⟨mismatch, fault⟩

theorem answers_ofTable (source : Source) {table : Table} (distinct : DistinctKeys table) :
    Answers source table (ofTable source table) where
  schema := by
    rintro ⟨faulty, inside, mismatch, bad⟩
    cases read : Draft.ofTable table with
    | ok draft =>
      exact absurd bad ((exists_ofTable_iff table).mp ⟨draft, read⟩ faulty inside mismatch)
    | error first =>
      obtain ⟨entry, member, fault, least⟩ := exists_least_faulty read
      refine ⟨entry, member, first, fault, ?_, by simp only [ofTable, read]⟩
      -- Reading compares the characters of the keys, which is the same as comparing their bytes.
      rintro other there ⟨_, other_fault⟩
      exact (Text.bytes_le_iff _ _).mpr (least other there _ other_fault)
  validation := by
    rintro fit ⟨invalid, inside, bad⟩
    obtain ⟨draft, read⟩ := exists_draft fit
    have holds := holds_ofTable distinct read
    cases result : draft.validate with
    | ok options =>
      exact absurd bad (not_isInvalid_of_validate distinct holds result invalid inside)
    | error fault =>
      obtain ⟨before, _, after, order, ⟨entry, member, rfl, violates, span⟩, earlier⟩ :=
        exists_refusedAt_of_validate distinct holds result
      refine ⟨entry, member, fault.value, before, after, violates, order, ?_, ?_⟩
      · rintro other there early ⟨violation, other_bad⟩
        exact earlier other.key early ⟨violation, other.span⟩ ⟨other, there, rfl, other_bad, rfl⟩
      · simp only [ofTable, read, result, span]
  accepted := by
    intro fit valid
    obtain ⟨draft, read⟩ := exists_draft fit
    have holds := holds_ofTable distinct read
    cases result : draft.validate with
    | ok options => exact ⟨options, by simp only [ofTable, read, result]⟩
    | error fault =>
      obtain ⟨_, _, _, -, ⟨entry, member, -, violates, -⟩, -⟩ :=
        exists_refusedAt_of_validate distinct holds result
      exact absurd ⟨_, violates⟩ (valid entry member)

/-! ### One entry alone -/

theorem answers_singleton (source : Source) (entry : Entry Value) :
    Answers source [entry] (ofTable source [entry]) :=
  answers_ofTable source (List.nodup_singleton entry.key)

theorem isOwn_of_faulty (source : Source) {entry : Entry Value} {mismatch : Mismatch}
    (fault : Faulty entry mismatch) :
    IsOwn source entry (.parse source (.schema mismatch.cause mismatch.span)) := by
  refine ⟨?_, mismatch.span, fault.spanOf, rfl, by simp [Error.labels]⟩
  -- In a table of one entry the entry that is reported can only be this one.
  obtain ⟨other, member, again, same, -, answer⟩ :=
    (answers_singleton source entry).schema ⟨entry, List.mem_singleton_self entry, mismatch, fault⟩
  rw [List.mem_singleton] at member
  subst member
  rw [answer, same.unique fault]

theorem isOwn_of_violates (source : Source) {entry : Entry Value} {violation : Violation}
    (fit : ¬ IsFaulty entry) (violates : Violates entry violation) :
    IsOwn source entry (.validation source violation.message entry.span) := by
  refine ⟨?_, entry.span, .value, rfl, by simp [Error.labels]⟩
  obtain ⟨other, member, again, _, _, same, -, -, answer⟩ :=
    (answers_singleton source entry).validation (by simpa using fit)
      ⟨entry, List.mem_singleton_self entry, violation, violates⟩
  rw [List.mem_singleton] at member
  subst member
  rw [answer, same.unique violates]

theorem exists_isOwn {source : Source} {table : Table} {error : Error}
    (distinct : DistinctKeys table) (failed : ofTable source table = .error error) :
    ∃ entry ∈ table, IsOwn source entry error := by
  have answers := answers_ofTable source distinct
  -- The three parts of the answer leave out no table.
  by_cases faulty : ∃ entry ∈ table, IsFaulty entry
  · obtain ⟨entry, member, mismatch, fault, -, answer⟩ := answers.schema faulty
    rw [answer] at failed
    cases failed
    exact ⟨entry, member, isOwn_of_faulty source fault⟩
  have fit : ∀ entry ∈ table, ¬ IsFaulty entry := by simpa using faulty
  by_cases invalid : ∃ entry ∈ table, IsInvalid entry
  · obtain ⟨entry, member, violation, _, _, violates, -, -, answer⟩ :=
      answers.validation fit invalid
    rw [answer] at failed
    cases failed
    exact ⟨entry, member, isOwn_of_violates source (fit entry member) violates⟩
  · obtain ⟨options, accepted⟩ := answers.accepted fit (by simpa using invalid)
    rw [accepted] at failed
    cases failed

/-- From a table of distinct keys, in whatever order it comes, the fault that is reported is settled
by precedence and is one entry's own. The table of a document is such a table. -/
theorem read_reports_by_precedence (source : Source) :
    (∀ table, DistinctKeys table →
      (∀ other, table.Perm other → ofTable source other = ofTable source table) ∧
      Answers source table (ofTable source table) ∧
      ∀ error, ofTable source table = .error error → ∃ entry ∈ table, IsOwn source entry error) ∧
    ∀ table, Toml.read? source.text = some table →
      DistinctKeys table ∧ read source = ofTable source table := by
  constructor
  · intro table distinct
    refine ⟨fun other perm => ?_, answers_ofTable source distinct, fun error => ?_⟩
    · simp only [ofTable, Draft.ofTable, Toml.sortByKey_eq_of_perm distinct perm]
    · exact exists_isOwn distinct
  · intro table found
    exact ⟨Toml.distinctKeys_read? found, by simp only [read, found]⟩

/-- A blank package, a banner of another type and a key that is not known. -/
def threeFaults : Source where
  text := "package = \" \"\nbanner = 3\nZed = true\n"
  filename := "javagen.toml"

def unknownEntry : Entry Value := ⟨"Zed", ⟨25, 3⟩, .boolean true, ⟨31, 4⟩⟩

def threeFaultsTable : Table :=
  [⟨"package", ⟨0, 7⟩, .string " ", ⟨10, 3⟩⟩, ⟨"banner", ⟨14, 6⟩, .integer (some 3), ⟨23, 1⟩⟩,
    unknownEntry]

theorem faulty_unknownEntry : Faulty unknownEntry ⟨.unknownField "Zed", ⟨25, 3⟩⟩ :=
  .unknownKey (by decide)

/-- The unknown key is least, since capitals come first, and it is reported wherever it stands. -/
theorem read_threeFaults :
    Toml.read? threeFaults.text = some threeFaultsTable ∧ DistinctKeys threeFaultsTable ∧
      threeFaultsTable.Perm threeFaultsTable.reverse ∧
      ofTable threeFaults threeFaultsTable.reverse =
        .error (.parse threeFaults (.schema (.unknownField "Zed") ⟨25, 3⟩)) ∧
      read threeFaults = .error (.parse threeFaults (.schema (.unknownField "Zed") ⟨25, 3⟩)) := by
  have document : Toml.read? threeFaults.text = some threeFaultsTable := by cbv
  have reversed : threeFaultsTable.Perm threeFaultsTable.reverse :=
    (List.reverse_perm threeFaultsTable).symm
  have last : unknownEntry ∈ threeFaultsTable := by simp [threeFaultsTable]
  obtain ⟨of_table, of_text⟩ := read_reports_by_precedence threeFaults
  obtain ⟨distinct, same⟩ := of_text _ document
  obtain ⟨permuted, answers, -⟩ := of_table _ distinct
  rw [same, permuted _ reversed]
  obtain ⟨entry, member, mismatch, fault, least, answer⟩ :=
    answers.schema ⟨unknownEntry, last, _, faulty_unknownEntry⟩
  have first := least unknownEntry last ⟨_, faulty_unknownEntry⟩
  refine ⟨document, distinct, reversed, ?_⟩
  rw [answer, and_self]
  simp only [threeFaultsTable, List.mem_cons, List.not_mem_nil, or_false] at member
  rcases member with rfl | rfl | rfl
  -- The blank package is of the right type, and the banner's key is not the least.
  · exact absurd fault ((Takes.package rfl rfl : Takes {} _ _).not_faulty _)
  · exact absurd first (by decide)
  · rw [fault.unique faulty_unknownEntry]

end JavaSource.Options
