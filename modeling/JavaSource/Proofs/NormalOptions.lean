import JavaSource.Proofs.OptionsGrammar
import JavaSource.Proofs.Padding
import JavaSource.Proofs.WrittenDocument

/-!
# Normal options

Options are normal if each value in them is one that reading leaves as it is. What is read is always
normal, and normal options are read from every document that holds them: their values at the four
keys, the strings with any blanks around them. Since there is such a table for all options, and such
a document can be written for all normal ones, these are the options that can be read at all, and
reading them again changes nothing.
-/
namespace JavaSource.Options

open Toml (Value Entry Table DistinctKeys Lexeme Pair Spells)
open Text (Padding)

/-- A package that has characters and no blanks at its ends, a width that is supported, and a banner
that is one block comment and has no blanks at its ends. -/
structure Normal (options : Options) : Prop where
  package : ∀ name ∈ options.package, name ≠ "" ∧ Text.Trimmed name
  indent : options.indent ∈ supported
  banner : ∀ text ∈ options.banner, Text.Trimmed text ∧ IsSingleComment text

/-- A string that is this text but for the blanks around it. -/
def IsPadded (entry : Entry Value) (given : Option String) : Prop :=
  ∃ (padding : Padding) (text : String), entry.value = .string (padding.around text) ∧
    given = some text

/-- The table has the value of each of the options at its key, and no other keys. Only a value that
an absent key stands for may be missing. -/
structure Holds (table : Table) (options : Options) : Prop where
  keys : ∀ entry ∈ table, entry.key ∈ keys
  package : AtKey table "package" none IsPadded options.package
  finalFields : AtKey table "final-fields" true MeansFlag options.finalFields
  indent : AtKey table "indent" (.spaces 2) (fun entry => IndentShape entry.value) options.indent
  banner : AtKey table "banner" none IsPadded options.banner

/-- A normal indentation is shown as it is configured. -/
theorem Normal.unit_indent {options : Options} (normal : options.Normal) :
    (options.indent = .tab ∧ options.indent.unit = "\t") ∨
      ∃ width ∈ [2, 4, 8], options.indent = .spaces width ∧
        options.indent.unit = String.ofList (List.replicate width.toNat ' ') := by
  have configured := normal.indent
  cases indent : options.indent with
  | tab => exact .inl ⟨rfl, rfl⟩
  | spaces width =>
    rw [indent] at configured
    have listed : width ∈ [2, 4, 8] := by simpa [supported] using configured
    exact .inr ⟨width, listed, rfl,
      Indent.unit_of_isSupported width ((isSupported_iff _).mpr configured)⟩

/-! ### The grammar says no more than this -/

/-- What a key stands for can be said in two parts, of which one does not look at the entry. -/
theorem atKey_and_iff {β : Type} {table : Table} {key : String} {default value : β}
    {Means Other : Entry Value → β → Prop} {Extra : β → Prop} (of_default : Extra default)
    (same : ∀ entry value, Means entry value ↔ Extra value ∧ Other entry value) :
    AtKey table key default Means value ↔ Extra value ∧ AtKey table key default Other value := by
  constructor
  · intro holds
    cases holds with
    | absent missing => exact ⟨of_default, .absent missing⟩
    | present found means =>
      obtain ⟨extra, other⟩ := (same _ _).mp means
      exact ⟨extra, .present found other⟩
  · rintro ⟨extra, holds⟩
    cases holds with
    | absent missing => exact .absent missing
    | present found other => exact .present found ((same _ _).mpr ⟨extra, other⟩)

/-- A text has a character that is not blank exactly if trimming leaves something of it. -/
theorem exists_visible_iff (text : String) :
    (∃ c ∈ text.toList, Text.isBlank c = false) ↔ Text.trim text ≠ "" := by
  rw [ne_eq, ← String.isEmpty_iff, isEmpty_trim_iff]
  simp

/-- A string of which trimming leaves something is that with blanks around it. -/
theorem isPadded_of_value {entry : Entry Value} {text : String}
    (value : entry.value = .string text) : IsPadded entry (some (Text.trim text)) := by
  obtain ⟨padding, split⟩ := Text.exists_eq_around text
  exact ⟨padding, _, by rw [value, ← split], rfl⟩

/-- Where the blanks around a text do not count for what is allowed, the documented strings are the
texts that are allowed and have no blanks at their ends, with blanks around them. -/
theorem textOf_iff {Allowed : String → Prop} (Kept : String → Prop)
    (same : ∀ text, Allowed text ↔ Kept (Text.trim text)) (entry : Entry Value)
    (given : Option String) :
    TextOf Allowed entry given ↔
      (∀ text ∈ given, Kept text ∧ Text.Trimmed text) ∧ IsPadded entry given := by
  constructor
  · rintro ⟨text, value, allowed, rfl⟩
    refine ⟨?_, isPadded_of_value value⟩
    rintro _ ⟨⟩
    exact ⟨(same text).mp allowed, Text.trimmed_trim text⟩
  · rintro ⟨normal, padding, text, value, rfl⟩
    -- The blanks around a normal text are what trimming takes away.
    obtain ⟨kept, trimmed⟩ := normal text rfl
    have inner := Text.trim_around trimmed padding
    exact ⟨_, value, (same _).mpr (by rwa [inner]), by rw [inner]⟩

theorem packageOf_iff (entry : Entry Value) (package : Option String) :
    PackageOf entry package ↔
      (∀ name ∈ package, name ≠ "" ∧ Text.Trimmed name) ∧ IsPadded entry package :=
  textOf_iff (· ≠ "") exists_visible_iff entry package

theorem bannerOf_iff (entry : Entry Value) (banner : Option String) :
    BannerOf entry banner ↔
      (∀ text ∈ banner, Text.Trimmed text ∧ IsSingleComment text) ∧ IsPadded entry banner := by
  simp only [and_comm (a := Text.Trimmed _)]
  exact textOf_iff IsSingleComment (fun _ => Iff.rfl) entry banner

/-- A document gives options exactly if they are normal and the document holds them. -/
theorem documented_iff (table : Table) (options : Options) :
    Documented table options ↔ options.Normal ∧ Holds table options := by
  have package : AtKey table "package" none PackageOf options.package ↔ _ :=
    atKey_and_iff nofun packageOf_iff
  have indent : AtKey table "indent" (.spaces 2) IndentOf options.indent ↔ _ :=
    atKey_and_iff (by decide) fun entry indent => and_comm
  have banner : AtKey table "banner" none BannerOf options.banner ↔ _ :=
    atKey_and_iff nofun bannerOf_iff
  constructor
  · intro documented
    obtain ⟨name, holds_package⟩ := package.mp documented.package
    obtain ⟨unit, holds_indent⟩ := indent.mp documented.indent
    obtain ⟨comment, holds_banner⟩ := banner.mp documented.banner
    exact ⟨⟨name, unit, comment⟩,
      ⟨documented.keys, holds_package, documented.finalFields, holds_indent, holds_banner⟩⟩
  · rintro ⟨normal, holds⟩
    exact ⟨holds.keys, package.mpr ⟨normal.package, holds.package⟩, holds.finalFields,
      indent.mpr ⟨normal.indent, holds.indent⟩, banner.mpr ⟨normal.banner, holds.banner⟩⟩

/-- A source gives options exactly if they are normal and the document holds them. -/
theorem read_eq_ok_iff_holds (source : Source) (options : Options) :
    read source = .ok options ↔
      ∃ table, Toml.read? source.text = some table ∧ options.Normal ∧ Holds table options := by
  unfold read
  cases found : Toml.read? source.text with
  | none => simp
  | some table =>
    have distinct := Toml.distinctKeys_read? found
    simp only [ofTable_eq_ok_iff_documented distinct, documented_iff, Option.some.injEq,
      exists_eq_left']

/-! ### The keys that are given -/

/-- The keys of the options that have a value, in the order in which they are written. -/
def givenKeys (options : Options) : List String :=
  (options.package.map fun _ => "package").toList ++ ["final-fields", "indent"] ++
    (options.banner.map fun _ => "banner").toList

section Given

variable {options : Options} {table : Table}

theorem nodup_givenKeys (options : Options) : options.givenKeys.Nodup := by
  rw [givenKeys]
  cases options.package <;> cases options.banner <;> simp

theorem mem_keys_of_mem_givenKeys {key : String} (given : key ∈ options.givenKeys) :
    key ∈ keys := by
  rw [givenKeys] at given
  revert given
  cases options.package <;> cases options.banner <;> simp +contextual [keys, or_imp]

theorem package_not_mem_givenKeys (missing : options.package = none) :
    "package" ∉ options.givenKeys := by
  rw [givenKeys, missing]
  cases options.banner <;> simp

theorem banner_not_mem_givenKeys (missing : options.banner = none) :
    "banner" ∉ options.givenKeys := by
  rw [givenKeys, missing]
  cases options.package <;> simp

/-- A table of just the keys that are given holds the options if its entries mean their values. -/
theorem holds_of_givenKeys (given : table.map Entry.key = options.givenKeys)
    (package : ∀ name, options.package = some name →
      AtKey table "package" none IsPadded (some name))
    (finalFields : AtKey table "final-fields" true MeansFlag options.finalFields)
    (indent : AtKey table "indent" (.spaces 2) (fun entry => IndentShape entry.value)
      options.indent)
    (banner : ∀ text, options.banner = some text →
      AtKey table "banner" none IsPadded (some text)) : Holds table options := by
  have mem_given (entry : Entry Value) (member : entry ∈ table) :
      entry.key ∈ options.givenKeys := given ▸ List.mem_map_of_mem member
  have missing {key : String} (absent : key ∉ options.givenKeys) :
      Toml.lookup? table key = none :=
    (Toml.lookup?_eq_none_iff table key).mpr fun entry member same =>
      absent (same ▸ mem_given entry member)
  refine ⟨fun entry member => mem_keys_of_mem_givenKeys (mem_given entry member), ?_, finalFields,
    indent, ?_⟩
  · cases same : options.package with
    | none => exact .absent (missing (package_not_mem_givenKeys same))
    | some name => exact package name same
  · cases same : options.banner with
    | none => exact .absent (missing (banner_not_mem_givenKeys same))
    | some text => exact banner text same

end Given

/-! ### A table for all options -/

/-- An entry that stands at no place of a document; what options a table holds does not depend on
its spans. -/
def unplaced (key : String) (value : Value) : Entry Value := ⟨key, ⟨0, 0⟩, value, ⟨0, 0⟩⟩

def indentValue : Indent → Value
  | .tab => .string "tab"
  | .spaces width => .table [unplaced "spaces" (.integer (some width.toNat))]

/-- An entry for each value of the options; one that is not given has no entry. -/
def table (options : Options) (around_package around_banner : Padding) : Table :=
  (options.package.map fun name =>
      unplaced "package" (.string (around_package.around name))).toList ++
    [unplaced "final-fields" (.boolean options.finalFields),
      unplaced "indent" (indentValue options.indent)] ++
    (options.banner.map fun text =>
      unplaced "banner" (.string (around_banner.around text))).toList

theorem indentShape_indentValue (indent : Indent) : IndentShape (indentValue indent) indent := by
  cases indent with
  | tab => exact .name
  | spaces width => exact .width rfl rfl

section Table

variable (options : Options) (around_package around_banner : Padding)

theorem map_key_table :
    (options.table around_package around_banner).map Entry.key = options.givenKeys := by
  rw [table, givenKeys]
  cases options.package <;> cases options.banner <;> rfl

theorem distinctKeys_table : DistinctKeys (options.table around_package around_banner) := by
  rw [DistinctKeys, map_key_table]
  exact options.nodup_givenKeys

/-- Whatever the options are, there is a table that holds them, with any blanks around its strings.
-/
theorem holds_table : Holds (options.table around_package around_banner) options := by
  have present {β : Type} {Means : Entry Value → β → Prop} {default given : β}
      {entry : Entry Value} (member : entry ∈ options.table around_package around_banner)
      (means : Means entry given) : AtKey _ entry.key default Means given :=
    .present ((Toml.lookup?_eq_some_iff (options.distinctKeys_table _ _) _ _).mpr ⟨member, rfl⟩)
      means
  refine holds_of_givenKeys (options.map_key_table _ _) (fun name given => ?_) ?_ ?_
    (fun text given => ?_)
  · have member : unplaced "package" (.string (around_package.around name)) ∈
        options.table around_package around_banner := by simp [table, given]
    exact present member ⟨around_package, name, rfl, rfl⟩
  · have member : unplaced "final-fields" (.boolean options.finalFields) ∈
        options.table around_package around_banner := by simp [table]
    exact present member rfl
  · have member : unplaced "indent" (indentValue options.indent) ∈
        options.table around_package around_banner := by simp [table]
    exact present member (indentShape_indentValue options.indent)
  · have member : unplaced "banner" (.string (around_banner.around text)) ∈
        options.table around_package around_banner := by simp [table, given]
    exact present member ⟨around_banner, text, rfl, rfl⟩

end Table

/-! ### A document for all normal options -/

def indentLexemes : Indent → List Lexeme
  | .tab => [.text "tab" false]
  | .spaces width =>
    [.openBrace, .atom "spaces".toList, .equals, .atom [Text.digit width.toNat], .closeBrace]

/-- A line for each value of the options; one that is not given has no line. -/
def pairs (options : Options) (around_package around_banner : Padding) : List Pair :=
  (options.package.map fun name =>
      ⟨"package", [.text (around_package.around name) false]⟩).toList ++
    [⟨"final-fields", [.atom (if options.finalFields then "true" else "false").toList]⟩,
      ⟨"indent", indentLexemes options.indent⟩] ++
    (options.banner.map fun text => ⟨"banner", [.text (around_banner.around text) false]⟩).toList

/-- The options as a document, the package and the banner with blanks around them. -/
def document (options : Options) (around_package around_banner : Padding) : String :=
  Toml.writeDocument (options.pairs around_package around_banner)

theorem spells_string (content : String) : Spells [.text content false] (· = .string content) := by
  intro offset steps span rest enough
  obtain ⟨left, rfl⟩ := Nat.exists_eq_add_of_le' enough
  exact ⟨_, rfl, rfl⟩

theorem spells_boolean (flag : Bool) :
    Spells [.atom (if flag then "true" else "false").toList] (· = .boolean flag) := by
  intro offset steps span rest enough
  obtain ⟨left, rfl⟩ := Nat.exists_eq_add_of_le' enough
  cases flag
  · exact ⟨_, rfl, rfl⟩
  · exact ⟨_, rfl, rfl⟩

theorem spells_indent {indent : Indent} (known : indent ∈ supported) :
    Spells (indentLexemes indent) (IndentShape · indent) := by
  intro offset steps span rest enough
  -- Each width is a digit of its own, and only then the reader can be run on it.
  simp only [supported, List.mem_cons, List.not_mem_nil, or_false] at known
  rcases known with rfl | rfl | rfl | rfl
  · obtain ⟨left, rfl⟩ := Nat.exists_eq_add_of_le' enough
    exact ⟨_, .width rfl rfl, rfl⟩
  · obtain ⟨left, rfl⟩ := Nat.exists_eq_add_of_le' enough
    exact ⟨_, .width rfl rfl, rfl⟩
  · obtain ⟨left, rfl⟩ := Nat.exists_eq_add_of_le' enough
    exact ⟨_, .width rfl rfl, rfl⟩
  · obtain ⟨left, rfl⟩ := Nat.exists_eq_add_of_le' enough
    exact ⟨_, .name, rfl⟩

theorem separate_string (content : String) :
    Lexeme.Separate ([.text content false] ++ [.newline]) :=
  .cons (.string ⟨'\n', rfl⟩) (.cons (.mark ⟨'\n', rfl⟩) .nil)

theorem separate_boolean (flag : Bool) :
    Lexeme.Separate ([.atom (if flag then "true" else "false").toList] ++ [.newline]) := by
  have bare : Lexeme.IsBareWord (if flag then "true" else "false").toList := by
    cases flag <;> decide
  exact .cons (.word bare ⟨'\n', rfl⟩) (.cons (.mark ⟨'\n', rfl⟩) .nil)

theorem separate_indent {indent : Indent} (known : indent ∈ supported) :
    Lexeme.Separate (indentLexemes indent ++ [.newline]) := by
  have digits : ∀ value < 10, Lexeme.IsBareWord [Text.digit value] := by decide
  cases indent with
  | tab => exact separate_string "tab"
  | spaces width =>
    have small : width.toNat < 10 := by
      simp only [supported, List.mem_cons, List.not_mem_nil, or_false, Indent.spaces.injEq,
        reduceCtorEq] at known
      rcases known with rfl | rfl | rfl <;> decide
    have digit := digits width.toNat small
    -- Marks stand on both sides of the word and of the digit.
    exact .cons (.mark ⟨'\x7b', rfl⟩) (.cons (.word (by decide) ⟨'=', rfl⟩)
      (.cons (.mark ⟨'=', rfl⟩) (.cons (.word digit ⟨'\x7d', rfl⟩)
        (.cons (.mark ⟨'\x7d', rfl⟩) (.cons (.mark ⟨'\n', rfl⟩) .nil)))))

theorem readable_pair {key : String} (known : key ∈ keys) {value : List Lexeme}
    (separate : Lexeme.Separate (value ++ [.newline])) {Shape : Value → Prop}
    (spells : Spells value Shape) : Pair.Readable ⟨key, value⟩ := by
  have bare : ∀ key ∈ keys, Lexeme.IsBareWord key.toList := by decide
  refine ⟨bare key known, separate, fun offset steps span rest enough => ?_⟩
  obtain ⟨content, -, found⟩ := spells offset steps span rest enough
  exact ⟨content, trivial, found⟩

section Document

variable {options : Options} {around_package around_banner : Padding}

theorem readable_pairs (normal : options.Normal) :
    ∀ pair ∈ options.pairs around_package around_banner, pair.Readable := by
  intro pair member
  simp only [pairs, List.mem_append, List.mem_cons, List.not_mem_nil, or_false, Option.mem_toList,
    Option.map_eq_some_iff] at member
  rcases member with (⟨name, -, rfl⟩ | rfl | rfl) | ⟨text, -, rfl⟩
  · exact readable_pair (by decide) (separate_string _) (spells_string _)
  · exact readable_pair (by decide) (separate_boolean _) (spells_boolean _)
  · exact readable_pair (by decide) (separate_indent normal.indent) (spells_indent normal.indent)
  · exact readable_pair (by decide) (separate_string _) (spells_string _)

theorem map_key_pairs :
    (options.pairs around_package around_banner).map Pair.key = options.givenKeys := by
  rw [pairs, givenKeys]
  cases options.package <;> cases options.banner <;> rfl

theorem nodup_map_key_pairs :
    ((options.pairs around_package around_banner).map Pair.key).Nodup := by
  rw [map_key_pairs]
  exact options.nodup_givenKeys

/-- A line stands for what its value means. -/
theorem atKey_of_line {table : Table}
    (gives : List.Forall₂ Pair.Gives (options.pairs around_package around_banner) table)
    {key : String} {value : List Lexeme}
    (line : ⟨key, value⟩ ∈ options.pairs around_package around_banner) {Shape : Value → Prop}
    (spells : Spells value Shape) {β : Type} {default given : β} {Means : Entry Value → β → Prop}
    (means : ∀ entry, Shape entry.value → Means entry given) :
    AtKey table key default Means given := by
  obtain ⟨entry, found, here⟩ := Toml.lookup?_of_gives gives
    nodup_map_key_pairs line
  exact .present found (means entry (here.shape Shape spells))

/-- What is read from the lines of a document holds the options. -/
theorem holds_of_gives (normal : options.Normal) {table : Table}
    (gives : List.Forall₂ Pair.Gives (options.pairs around_package around_banner) table) :
    Holds table options := by
  have given : table.map Entry.key = options.givenKeys := by
    rw [Toml.keys_of_gives gives, map_key_pairs]
  refine holds_of_givenKeys given (fun name given => ?_) ?_ ?_ (fun text given => ?_)
  · exact atKey_of_line gives (by simp [pairs, given]) (spells_string _)
      fun entry value => ⟨around_package, name, value, rfl⟩
  · exact atKey_of_line gives (by simp [pairs]) (spells_boolean _) fun entry value => value
  · exact atKey_of_line gives (by simp [pairs]) (spells_indent normal.indent)
      fun entry shape => shape
  · exact atKey_of_line gives (by simp [pairs, given]) (spells_string _)
      fun entry value => ⟨around_banner, text, value, rfl⟩

/-- Normal options are read from the document that is written for them. -/
theorem read_document (normal : options.Normal) (filename : String) :
    read ⟨options.document around_package around_banner, filename⟩ = .ok options := by
  have readable : ∀ pair ∈ options.pairs around_package around_banner, pair.Readable :=
    readable_pairs normal
  have distinct : ((options.pairs around_package around_banner).map Pair.key).Nodup :=
    nodup_map_key_pairs
  obtain ⟨table, found, gives⟩ := Toml.read?_writeDocument readable distinct
  exact (read_eq_ok_iff_holds _ _).mpr ⟨table, found, normal, holds_of_gives normal gives⟩

end Document

/-- A table gives options exactly if they are normal and it holds them, and there is a table for all
that are. -/
theorem exists_table_iff_normal (source : Source) (options : Options) :
    (∃ table, DistinctKeys table ∧ ofTable source table = .ok options) ↔ options.Normal := by
  constructor
  · rintro ⟨table, distinct, accepted⟩
    rw [ofTable_eq_ok_iff_documented distinct, documented_iff] at accepted
    exact accepted.1
  · intro normal
    have distinct := options.distinctKeys_table {} {}
    refine ⟨options.table {} {}, distinct, ?_⟩
    rw [ofTable_eq_ok_iff_documented distinct, documented_iff]
    exact ⟨normal, options.holds_table {} {}⟩

/-- What is read is always normal, and normal options are read from every table and every source
that holds their values. There is such a table, whatever blanks stand around its strings. Normal
options are shown as configured, and there is a document for them too. So reading its own results
again gives them back, and the options that can be read are the normal ones. -/
theorem read_eq_ok_iff_normal :
    (∀ source table options, DistinctKeys table →
      (ofTable source table = .ok options ↔ options.Normal ∧ Holds table options)) ∧
    (∀ (options : Options) around_package around_banner,
      DistinctKeys (options.table around_package around_banner) ∧
        Holds (options.table around_package around_banner) options) ∧
    (∀ source options, read source = .ok options ↔
      ∃ table, Toml.read? source.text = some table ∧ options.Normal ∧ Holds table options) ∧
    (∀ options : Options, options.Normal →
      ((options.indent = .tab ∧ options.indent.unit = "\t") ∨
        ∃ width ∈ [2, 4, 8], options.indent = .spaces width ∧
          options.indent.unit = String.ofList (List.replicate width.toNat ' ')) ∧
      ∀ around_package around_banner filename,
        read ⟨options.document around_package around_banner, filename⟩ = .ok options) ∧
    (∀ source options, read source = .ok options →
      ∀ around_package around_banner filename,
        read ⟨options.document around_package around_banner, filename⟩ = .ok options) ∧
    ∀ options : Options, (∃ source, read source = .ok options) ↔ options.Normal := by
  have of_read : ∀ source options, read source = .ok options → options.Normal := by
    intro source options accepted
    obtain ⟨table, -, normal, -⟩ := (read_eq_ok_iff_holds source options).mp accepted
    exact normal
  refine ⟨?tables, ?held, read_eq_ok_iff_holds, ?documents, ?again, ?image⟩
  case tables =>
    intro source table options distinct
    exact (ofTable_eq_ok_iff_documented distinct source options).trans
      (documented_iff table options)
  case held =>
    intro options around_package around_banner
    exact ⟨options.distinctKeys_table _ _, options.holds_table _ _⟩
  case documents =>
    intro options normal
    exact ⟨normal.unit_indent, fun _ _ filename => read_document normal filename⟩
  case again =>
    intro source options accepted _ _ filename
    exact read_document (of_read source options accepted) filename
  case image =>
    intro options
    refine ⟨fun ⟨source, accepted⟩ => of_read source options accepted, fun normal => ?_⟩
    exact ⟨⟨options.document {} {}, defaultFilename⟩, read_document normal defaultFilename⟩

/-- All four values, none of them the default. -/
def everyOption : Options where
  package := some "org.example"
  finalFields := false
  indent := .tab
  banner := some "/* made by hand */"

theorem normal_everyOption : everyOption.Normal where
  package := by
    rintro _ ⟨⟩
    exact ⟨by decide, by decide⟩
  indent := by decide
  banner := by
    rintro _ ⟨⟩
    exact ⟨by decide, (isBlockComment_iff _).mp (by decide)⟩

def ideographicSpaces : Padding where
  before := "\u3000\n"
  after := "\u3000"
  blank_before := by simp [Text.isBlank]
  blank_after := by simp [Text.isBlank]

theorem read_everyOption :
    DistinctKeys threeKeysTable ∧ threeKeysOptions.Normal ∧ everyOption.Normal ∧
      Holds threeKeysTable threeKeysOptions ∧
      everyOption.indent.unit = "\t" ∧
      everyOption.document {} {} =
        "package=\"org.example\"\nfinal-fields=false\nindent=\"tab\"\n" ++
          "banner=\"/* made by hand */\"\n" ∧
      read ⟨everyOption.document ideographicSpaces {}, "padded.toml"⟩ = .ok everyOption ∧
      read ⟨everyOption.document {} ideographicSpaces, "again.toml"⟩ = .ok everyOption := by
  have distinct : DistinctKeys threeKeysTable := by decide
  obtain ⟨tables, -, -, documents, again, image⟩ := read_eq_ok_iff_normal
  obtain ⟨normal, holds⟩ := (tables threeKeys threeKeysTable threeKeysOptions distinct).mp
    ((ofTable_eq_ok_iff_documented distinct _ _).mpr documented_threeKeys)
  obtain ⟨-, accepted⟩ := documents everyOption normal_everyOption
  have once := accepted ideographicSpaces {} "padded.toml"
  have written : everyOption.document {} {} =
      "package=\"org.example\"\nfinal-fields=false\nindent=\"tab\"\n" ++
        "banner=\"/* made by hand */\"\n" := by cbv
  exact ⟨distinct, normal, (image everyOption).mp ⟨_, once⟩, holds, rfl, written, once,
    again _ everyOption once {} ideographicSpaces "again.toml"⟩

end JavaSource.Options
