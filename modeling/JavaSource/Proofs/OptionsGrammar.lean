import JavaSource.Proofs.Validation
import Mathlib

/-!
# The grammar of options documents

What a document of options may hold at each key, and which options it then gives. Reading accepts
the documents of this grammar and no others, and gives the options that the grammar says.
-/
namespace JavaSource.Options

open Toml (Value Entry Table DistinctKeys)

/-- A string that is allowed is kept without the blanks around it. -/
def TextOf (Allowed : String → Prop) (entry : Entry Value) (given : Option String) : Prop :=
  ∃ text, entry.value = .string text ∧ Allowed text ∧ given = some (Text.trim text)

/-- A package is a string that is not blank. -/
def PackageOf : Entry Value → Option String → Prop :=
  TextOf fun text => ∃ c ∈ text.toList, Text.isBlank c = false

/-- An indentation is `"tab"`, a table whose only key is `tab` and holds nothing, or a table whose
only key is `spaces` and holds two, four or eight. -/
def IndentOf (entry : Entry Value) (indent : Indent) : Prop :=
  IndentShape entry.value indent ∧ indent ∈ supported

/-- A banner is a string that is one block comment but for the blanks around it. -/
def BannerOf : Entry Value → Option String → Prop :=
  TextOf fun text => IsSingleComment (Text.trim text)

/-- A document of options, and the options it gives. -/
structure Documented (table : Table) (options : Options) : Prop where
  keys : ∀ entry ∈ table, entry.key ∈ keys
  package : AtKey table "package" none PackageOf options.package
  finalFields : AtKey table "final-fields" true MeansFlag options.finalFields
  indent : AtKey table "indent" (.spaces 2) IndentOf options.indent
  banner : AtKey table "banner" none BannerOf options.banner

/-! ### Each key -/

/-- A check that accepts the texts that are allowed, and trims them, gives them as documented. -/
theorem checked_text_iff {valid : String → Except Violation String} {Allowed : String → Prop}
    (accepts : ∀ text result, valid text = .ok result ↔ Allowed text ∧ result = Text.trim text)
    (entry : Entry Value) (given : Option String) :
    Checked IsText valid entry given ↔ TextOf Allowed entry given := by
  simp only [Checked, TextOf, IsText, accepts]
  constructor
  · rintro ⟨text, _, value, ⟨allowed, rfl⟩, given⟩
    exact ⟨text, value, allowed, given⟩
  · rintro ⟨text, value, allowed, given⟩
    exact ⟨text, _, value, ⟨allowed, rfl⟩, given⟩

theorem checked_indent_iff (entry : Entry Value) (indent : Indent) :
    Checked IndentShape validIndent entry (some indent) ↔ IndentOf entry indent := by
  simp only [Checked, IndentOf, validIndent_eq_ok_iff]
  constructor
  · rintro ⟨_, _, shape, ⟨known, rfl⟩, ⟨⟩⟩
    exact ⟨shape, known⟩
  · rintro ⟨shape, known⟩
    exact ⟨indent, indent, shape, ⟨known, rfl⟩, rfl⟩

/-- An indentation that is not given is the default one. -/
theorem atKey_indent_iff (table : Table) (indent : Indent) :
    (∃ given, AtKey table "indent" none (Checked IndentShape validIndent) given ∧
      indent = given.getD .java) ↔ AtKey table "indent" (.spaces 2) IndentOf indent := by
  constructor
  · rintro ⟨given, holds, rfl⟩
    cases holds with
    | absent missing => exact .absent missing
    | present found checked =>
      -- A check that passes gives something, so what stands at the key is not the default.
      cases given with
      | none =>
        obtain ⟨_, _, -, -, absurd_given⟩ := checked
        cases absurd_given
      | some indent => exact .present found ((checked_indent_iff _ indent).mp checked)
  · intro holds
    cases holds with
    | absent missing => exact ⟨none, .absent missing, rfl⟩
    | present found means =>
      exact ⟨some indent, .present found ((checked_indent_iff _ indent).mpr means), rfl⟩

/-- No entry of a documented table is at fault. -/
theorem Documented.not_faulty {table : Table} {options : Options}
    (distinct : DistinctKeys table) (documented : Documented table options) :
    ∀ entry ∈ table, ∀ fault, ¬ Faulty entry fault := by
  intro entry member fault
  -- An entry that fits is taken by a draft, and what is taken is not at fault.
  have key := documented.keys entry member
  simp only [Options.keys, List.mem_cons, List.not_mem_nil, or_false] at key
  rcases key with package | finalFields | indent | banner
  · obtain ⟨text, value, -⟩ := documented.package.means distinct member package
    exact (Takes.package package value : Takes {} entry _).not_faulty fault
  · have value := documented.finalFields.means distinct member finalFields
    exact (Takes.finalFields finalFields value : Takes {} entry _).not_faulty fault
  · obtain ⟨shape, -⟩ := documented.indent.means distinct member indent
    exact (Takes.indent indent shape : Takes {} entry _).not_faulty fault
  · obtain ⟨text, value, -⟩ := documented.banner.means distinct member banner
    exact (Takes.banner banner value : Takes {} entry _).not_faulty fault

/-! ### The whole document -/

theorem keys_of_ofTable {table : Table} {draft : Draft} (read : Draft.ofTable table = .ok draft) :
    ∀ entry ∈ table, entry.key ∈ keys := by
  intro entry member
  obtain ⟨before, after, takes⟩ :=
    takes_of_foldlM read ((Toml.mem_sortByKey table entry).mpr member)
  exact takes.key_mem

/-- A draft is valid exactly if the table it was read from is documented, and gives what is
documented. -/
theorem validate_eq_ok_iff_documented {table : Table} {draft : Draft}
    (distinct : DistinctKeys table) (read : Draft.ofTable table = .ok draft) (options : Options) :
    draft.validate = .ok options ↔ Documented table options := by
  have holds := holds_ofTable distinct read
  have package : _ ↔ AtKey table "package" none PackageOf options.package :=
    (check_eq_ok_iff_atKey holds.package isText_unique validPackage options.package).trans
      (AtKey.congr (checked_text_iff validPackage_eq_ok_iff))
  have banner : _ ↔ AtKey table "banner" none BannerOf options.banner :=
    (check_eq_ok_iff_atKey holds.banner isText_unique validBanner options.banner).trans
      (AtKey.congr (checked_text_iff validBanner_eq_ok_iff))
  have indent := atKey_indent_iff table options.indent
  simp only [← check_eq_ok_iff_atKey holds.indent IndentShape.unique] at indent
  rw [validate_eq_ok_iff, package, banner, indent]
  constructor
  · rintro ⟨package, flag, indent, banner⟩
    refine ⟨keys_of_ofTable read, package, ?_, indent, banner⟩
    rw [flag]
    exact holds.finalFields
  · intro documented
    refine ⟨documented.package, ?_, documented.indent, documented.banner⟩
    exact documented.finalFields.unique holds.finalFields meansFlag_unique

/-- Options are read from a table of distinct keys exactly as documented. -/
theorem ofTable_eq_ok_iff_documented {table : Table} (distinct : DistinctKeys table)
    (source : Source) (options : Options) :
    ofTable source table = .ok options ↔ Documented table options := by
  unfold ofTable
  cases read : Draft.ofTable table with
  | error mismatch =>
    constructor
    · intro accepted
      cases accepted
    · -- A documented table has no faulty entry, so it would have been read.
      intro documented
      obtain ⟨draft, again⟩ := (exists_ofTable_iff table).mpr (documented.not_faulty distinct)
      rw [read] at again
      cases again
  | ok draft =>
    rw [← validate_eq_ok_iff_documented distinct read]
    dsimp only
    cases result : draft.validate <;> simp

/-- Reading accepts exactly the documents of the grammar, and gives the options that the grammar
says: from a table, whatever order its entries come in, and from the text of a document. -/
theorem read_eq_ok_iff_documented (source : Source) (options : Options) :
    (∀ table, DistinctKeys table →
      (ofTable source table = .ok options ↔ Documented table options)) ∧
    (read source = .ok options ↔
      ∃ table, Toml.read? source.text = some table ∧ Documented table options) := by
  refine ⟨fun table distinct => ofTable_eq_ok_iff_documented distinct source options, ?_⟩
  unfold read
  cases found : Toml.read? source.text with
  | none => simp
  | some table =>
    have distinct := Toml.distinctKeys_read? found
    change ofTable source table = .ok options ↔ _
    rw [ofTable_eq_ok_iff_documented distinct]
    simp

/-- Three of the keys, with blanks around the package and after the banner. -/
def threeKeys : Source where
  text :=
    "package = \" org.example \"\nindent = { spaces = 4 }\nbanner = \"/* generated */\\n\"\n"
  filename := "javagen.toml"

def threeKeysTable : Table :=
  [⟨"package", ⟨0, 7⟩, .string " org.example ", ⟨10, 15⟩⟩,
    ⟨"indent", ⟨26, 6⟩, .table [⟨"spaces", ⟨37, 6⟩, .integer (some 4), ⟨46, 1⟩⟩], ⟨35, 14⟩⟩,
    ⟨"banner", ⟨50, 6⟩, .string "/* generated */\n", ⟨59, 19⟩⟩]

def threeKeysOptions : Options where
  package := some "org.example"
  finalFields := true
  indent := .spaces 4
  banner := some "/* generated */"

theorem documented_threeKeys : Documented threeKeysTable threeKeysOptions where
  keys := by decide
  package := by
    refine .present (by rfl) ⟨_, rfl, ⟨'o', by decide, by decide⟩, by decide⟩
  finalFields := .absent (by rfl)
  indent := .present (by rfl) ⟨.width rfl rfl, by decide⟩
  banner := by
    refine .present (by rfl) ⟨_, rfl, (isBlockComment_iff _).mp (by decide), by decide⟩

theorem read_threeKeys :
    DistinctKeys threeKeysTable ∧ ofTable threeKeys threeKeysTable = .ok threeKeysOptions ∧
      read threeKeys = .ok threeKeysOptions := by
  have distinct : DistinctKeys threeKeysTable := by decide
  have document : Toml.read? threeKeys.text = some threeKeysTable := by cbv
  obtain ⟨of_table, of_text⟩ := read_eq_ok_iff_documented threeKeys threeKeysOptions
  exact ⟨distinct, (of_table _ distinct).mpr documented_threeKeys,
    of_text.mpr ⟨_, document, documented_threeKeys⟩⟩

end JavaSource.Options
