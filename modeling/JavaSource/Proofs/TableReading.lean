import JavaSource.Proofs.DistinctKeys
import JavaSource.Proofs.EntryShapes

/-!
# Reading the entries of a table

The entries are read in key order. Reading stops at the first that is at fault, so the fault is the
one of the least key. Where no entry is at fault, each part of the draft is what the table has at
one key.
-/
namespace JavaSource.Options

open Toml (Value Entry Table DistinctKeys)

/-! ### The first fault -/

/-- Reading stops at the first entry that does not fit. -/
theorem exists_faulty_of_foldlM {entries : Table} {draft : Draft} {mismatch : Mismatch}
    (failed : entries.foldlM Draft.take draft = .error mismatch) :
    ∃ before entry after, entries = before ++ entry :: after ∧ Faulty entry mismatch ∧
      ∀ other ∈ before, ∀ fault, ¬ Faulty other fault := by
  induction entries generalizing draft with
  | nil => cases failed
  | cons entry rest ih =>
    rw [List.foldlM_cons] at failed
    cases taken : draft.take entry with
    | error first =>
      rw [taken] at failed
      cases failed
      exact ⟨[], entry, rest, rfl, (take_eq_error_iff _ _ _).mp taken, nofun⟩
    | ok next =>
      -- Whether an entry is at fault does not depend on the draft, so the taken one is not.
      rw [taken] at failed
      obtain ⟨before, faulty, after, rfl, fault, fit⟩ := ih failed
      refine ⟨entry :: before, faulty, after, rfl, fault, ?_⟩
      intro other member bad faulty_other
      rcases List.mem_cons.mp member with rfl | later
      · rw [(take_eq_error_iff _ _ _).mpr faulty_other] at taken
        cases taken
      · exact fit other later bad faulty_other

/-- The fault of a table is that of the least key with a fault. -/
theorem exists_least_faulty {table : Table} {mismatch : Mismatch}
    (failed : Draft.ofTable table = .error mismatch) :
    ∃ entry ∈ table, Faulty entry mismatch ∧
      ∀ other ∈ table, ∀ fault, Faulty other fault → entry.key ≤ other.key := by
  obtain ⟨before, entry, after, sorted, fault, fit⟩ := exists_faulty_of_foldlM failed
  have mem_iff (other : Entry Value) : other ∈ table ↔ other ∈ before ++ entry :: after := by
    rw [← sorted, Toml.mem_sortByKey]
  have ordered := Toml.pairwise_sortByKey table
  rw [sorted] at ordered
  refine ⟨entry, (mem_iff entry).mpr (by simp), fault, fun other member bad faulty => ?_⟩
  -- An entry before the first faulty one has no fault, and one after it has no smaller key.
  rcases List.mem_append.mp ((mem_iff other).mp member) with early | late
  · exact absurd faulty (fit other early bad)
  · rcases List.mem_cons.mp late with rfl | later
    · exact String.le_refl _
    · exact (List.pairwise_cons.mp (List.pairwise_append.mp ordered).2.1).1 other later

/-- Reading succeeds if the first entry is taken and reading goes on from what it makes. -/
theorem foldlM_cons_eq_ok_iff (draft last : Draft) (entry : Entry Value) (rest : Table) :
    (entry :: rest).foldlM Draft.take draft = .ok last ↔
      ∃ next, Takes draft entry next ∧ rest.foldlM Draft.take next = .ok last := by
  simp only [List.foldlM_cons, ← take_eq_ok_iff]
  cases draft.take entry <;> simp [bind, Except.bind]

/-- Where reading succeeds, every entry was taken at some point. -/
theorem takes_of_foldlM {entries : Table} {draft last : Draft}
    (read : entries.foldlM Draft.take draft = .ok last) {entry : Entry Value}
    (member : entry ∈ entries) : ∃ before after, Takes before entry after := by
  induction entries generalizing draft with
  | nil => cases member
  | cons first rest ih =>
    obtain ⟨next, takes, goes_on⟩ := (foldlM_cons_eq_ok_iff _ _ _ _).mp read
    rcases List.mem_cons.mp member with rfl | later
    · exact ⟨draft, next, takes⟩
    · exact ih goes_on later

/-! ### What a table gives -/

/-- What stands for a key: a default if the table does not have the key, and what its entry means if
it does. -/
inductive AtKey {β : Type} (table : Table) (key : String) (default : β)
    (Means : Entry Value → β → Prop) : β → Prop where
  | absent (missing : Toml.lookup? table key = none) : AtKey table key default Means default
  | present {entry : Entry Value} {value : β} (found : Toml.lookup? table key = some entry)
      (means : Means entry value) : AtKey table key default Means value

theorem AtKey.congr {β : Type} {table : Table} {key : String} {default value : β}
    {Means Other : Entry Value → β → Prop}
    (same : ∀ entry value, Means entry value ↔ Other entry value) :
    AtKey table key default Means value ↔ AtKey table key default Other value := by
  have equal : Means = Other := by
    funext entry value
    exact propext (same entry value)
  rw [equal]

theorem AtKey.unique {β : Type} {table : Table} {key : String} {default first second : β}
    {Means : Entry Value → β → Prop}
    (here : AtKey table key default Means first) (there : AtKey table key default Means second)
    (unique : ∀ {entry value other}, Means entry value → Means entry other → value = other) :
    first = second := by
  cases here with
  | absent missing =>
    cases there with
    | absent => rfl
    | present found =>
      rw [missing] at found
      cases found
  | present found means =>
    cases there with
    | absent missing =>
      rw [missing] at found
      cases found
    | present again other =>
      rw [found] at again
      cases again
      exact unique means other

theorem AtKey.means {β : Type} {table : Table} {key : String} {default value : β}
    {Means : Entry Value → β → Prop} (distinct : DistinctKeys table)
    (holds : AtKey table key default Means value) {entry : Entry Value} (member : entry ∈ table)
    (here : entry.key = key) : Means entry value := by
  have found := (Toml.lookup?_eq_some_iff distinct key entry).mpr ⟨member, here⟩
  cases holds with
  | absent missing =>
    rw [missing] at found
    cases found
  | present again means =>
    rw [found] at again
    cases again
    exact means

/-- A part of a draft that only the entry at one key sets. -/
structure SetBy {β : Type} (part : Draft → β) (key : String) (Means : Entry Value → β → Prop) :
    Prop where
  kept : ∀ {draft next entry}, Takes draft entry next → entry.key ≠ key → part next = part draft
  means : ∀ {draft next entry}, Takes draft entry next → entry.key = key → Means entry (part next)

variable {β : Type} {part : Draft → β} {key : String} {Means : Entry Value → β → Prop}

theorem SetBy.kept_foldlM (set_by : SetBy part key Means) {entries : Table} {draft last : Draft}
    (read : entries.foldlM Draft.take draft = .ok last)
    (other : ∀ entry ∈ entries, entry.key ≠ key) : part last = part draft := by
  induction entries generalizing draft with
  | nil =>
    cases read
    rfl
  | cons entry rest ih =>
    obtain ⟨next, takes, goes_on⟩ := (foldlM_cons_eq_ok_iff _ _ _ _).mp read
    rw [ih goes_on fun later member => other later (List.mem_cons_of_mem _ member)]
    exact set_by.kept takes (other entry List.mem_cons_self)

/-- With distinct keys, no entry after the one at the key sets the part again. -/
theorem SetBy.means_foldlM (set_by : SetBy part key Means) {entries : Table} {draft last : Draft}
    (distinct : DistinctKeys entries) (read : entries.foldlM Draft.take draft = .ok last)
    {entry : Entry Value} (member : entry ∈ entries) (here : entry.key = key) :
    Means entry (part last) := by
  induction entries generalizing draft with
  | nil => cases member
  | cons first rest ih =>
    obtain ⟨fresh, later⟩ := List.nodup_cons.mp distinct
    obtain ⟨next, takes, goes_on⟩ := (foldlM_cons_eq_ok_iff _ _ _ _).mp read
    rcases List.mem_cons.mp member with rfl | inside
    · -- The rest has other keys and keeps what this entry set.
      have others : ∀ other ∈ rest, other.key ≠ key := fun other mem same =>
        fresh (List.mem_map.mpr ⟨other, mem, same.trans here.symm⟩)
      rw [set_by.kept_foldlM goes_on others]
      exact set_by.means takes here
    · exact ih later goes_on inside

theorem SetBy.atKey (set_by : SetBy part key Means) {table : Table} {draft : Draft}
    (distinct : DistinctKeys table) (read : Draft.ofTable table = .ok draft) :
    AtKey table key (part {}) Means (part draft) := by
  have sorted := distinct.perm (Toml.perm_sortByKey table).symm
  cases found : Toml.lookup? table key with
  | none =>
    have others := (Toml.lookup?_eq_none_iff table key).mp found
    rw [set_by.kept_foldlM read fun entry member =>
      others entry ((Toml.mem_sortByKey table entry).mp member)]
    exact .absent found
  | some entry =>
    obtain ⟨member, here⟩ := (Toml.lookup?_eq_some_iff distinct key entry).mp found
    exact .present found
      (set_by.means_foldlM sorted read ((Toml.mem_sortByKey table entry).mpr member) here)

/-- An entry gives what its value reads as, at its own span. -/
def Given {α : Type} (Reads : Value → α → Prop) (entry : Entry Value)
    (given : Option (Located α)) : Prop :=
  ∃ value, Reads entry.value value ∧ given = some ⟨value, entry.span⟩

def IsText (value : Value) (text : String) : Prop := value = .string text

theorem isText_unique {value : Value} {first second : String} (here : IsText value first)
    (there : IsText value second) : first = second :=
  Value.string.inj (here.symm.trans there)

def MeansFlag (entry : Entry Value) (flag : Bool) : Prop := entry.value = .boolean flag

theorem meansFlag_unique {entry : Entry Value} {first second : Bool}
    (here : MeansFlag entry first) (there : MeansFlag entry second) : first = second :=
  Value.boolean.inj (here.symm.trans there)

theorem setBy_package : SetBy Draft.package "package" (Given IsText) where
  kept takes other := by
    cases takes with
    | package key => exact absurd key other
    | _ => rfl
  means takes here := by
    cases takes with
    | package _ value => exact ⟨_, value, rfl⟩
    | finalFields key | indent key | banner key => exact absurd (here.symm.trans key) (by decide)

theorem setBy_finalFields : SetBy Draft.finalFields "final-fields" MeansFlag where
  kept takes other := by
    cases takes with
    | finalFields key => exact absurd key other
    | _ => rfl
  means takes here := by
    cases takes with
    | finalFields _ value => exact value
    | package key | indent key | banner key => exact absurd (here.symm.trans key) (by decide)

theorem setBy_indent : SetBy Draft.indent "indent" (Given IndentShape) where
  kept takes other := by
    cases takes with
    | indent key => exact absurd key other
    | _ => rfl
  means takes here := by
    cases takes with
    | indent _ shape => exact ⟨_, shape, rfl⟩
    | package key | finalFields key | banner key => exact absurd (here.symm.trans key) (by decide)

theorem setBy_banner : SetBy Draft.banner "banner" (Given IsText) where
  kept takes other := by
    cases takes with
    | banner key => exact absurd key other
    | _ => rfl
  means takes here := by
    cases takes with
    | banner _ value => exact ⟨_, value, rfl⟩
    | package key | finalFields key | indent key => exact absurd (here.symm.trans key) (by decide)

/-- The draft holds what the table has at each of the four keys. -/
structure Draft.Holds (draft : Draft) (table : Table) : Prop where
  package : AtKey table "package" none (Given IsText) draft.package
  finalFields : AtKey table "final-fields" true MeansFlag draft.finalFields
  indent : AtKey table "indent" none (Given IndentShape) draft.indent
  banner : AtKey table "banner" none (Given IsText) draft.banner

theorem holds_ofTable {table : Table} {draft : Draft} (distinct : DistinctKeys table)
    (read : Draft.ofTable table = .ok draft) : draft.Holds table :=
  ⟨setBy_package.atKey distinct read, setBy_finalFields.atKey distinct read,
    setBy_indent.atKey distinct read, setBy_banner.atKey distinct read⟩

theorem Takes.key_mem {draft next : Draft} {entry : Entry Value}
    (takes : Takes draft entry next) : entry.key ∈ keys := by
  cases takes with
  | package key | finalFields key | indent key | banner key => simp [key, keys]

theorem Takes.not_faulty {draft next : Draft} {entry : Entry Value}
    (takes : Takes draft entry next) (fault : Mismatch) : ¬ Faulty entry fault := by
  intro faulty
  have taken := (take_eq_ok_iff _ _ _).mpr takes
  rw [(take_eq_error_iff _ _ _).mpr faulty] at taken
  cases taken

/-- A table can be read exactly when none of its entries is at fault. -/
theorem exists_ofTable_iff (table : Table) :
    (∃ draft, Draft.ofTable table = .ok draft) ↔
      ∀ entry ∈ table, ∀ fault, ¬ Faulty entry fault := by
  constructor
  · rintro ⟨draft, read⟩ entry member
    obtain ⟨before, after, takes⟩ :=
      takes_of_foldlM read ((Toml.mem_sortByKey table entry).mpr member)
    exact takes.not_faulty
  · intro fit
    cases read : Draft.ofTable table with
    | ok draft => exact ⟨draft, rfl⟩
    | error mismatch =>
      obtain ⟨before, entry, after, sorted, fault, -⟩ := exists_faulty_of_foldlM read
      have member : entry ∈ Toml.sortByKey table := by
        rw [sorted]
        simp
      exact absurd fault (fit entry ((Toml.mem_sortByKey table entry).mp member) mismatch)

end JavaSource.Options
