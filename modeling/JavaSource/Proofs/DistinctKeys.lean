import JavaSource.Toml.Document
import JavaSource.Toml.KeyOrder
import Mathlib.Data.List.Nodup

/-!
# Tables with distinct keys

No two entries of a table have the same key, so an entry is found by its key wherever it stands,
and the order of keys is the only order of the entries. A document is read into such a table: every
step that builds it adds an entry only for a key that is not there yet.
-/
namespace JavaSource.Toml

variable {α : Type}

def DistinctKeys (entries : List (Entry α)) : Prop := (entries.map Entry.key).Nodup

instance (entries : List (Entry α)) : Decidable (DistinctKeys entries) :=
  inferInstanceAs (Decidable (List.Nodup _))

theorem DistinctKeys.perm {entries other : List (Entry α)} (distinct : DistinctKeys entries)
    (perm : entries.Perm other) : DistinctKeys other :=
  (perm.map Entry.key).nodup_iff.mp distinct

theorem DistinctKeys.eq_of_key_eq {entries : List (Entry α)} (distinct : DistinctKeys entries)
    {first second : Entry α} (here : first ∈ entries) (there : second ∈ entries)
    (same : first.key = second.key) : first = second :=
  List.inj_on_of_nodup_map distinct here there same

/-! ### In key order -/

theorem mem_sortByKey (table : Table) (entry : Entry Value) :
    entry ∈ sortByKey table ↔ entry ∈ table :=
  (perm_sortByKey table).mem_iff

/-- Distinct keys leave no choice in the order, so it does not matter which order they came in. -/
theorem sortByKey_eq_of_perm {table other : Table} (distinct : DistinctKeys table)
    (perm : table.Perm other) : sortByKey table = sortByKey other := by
  have sorted : (sortByKey table).Perm (sortByKey other) :=
    (perm_sortByKey table).trans (perm.trans (perm_sortByKey other).symm)
  -- Two sorted lists of the same entries are equal if the order is antisymmetric on them.
  refine sorted.eq_of_pairwise ?_ (pairwise_sortByKey table) (pairwise_sortByKey other)
  intro first second here there le ge
  refine distinct.eq_of_key_eq ((mem_sortByKey table first).mp here) ?_ (String.le_antisymm le ge)
  exact perm.mem_iff.mpr ((mem_sortByKey other second).mp there)

/-! ### The entry at a key -/

/-- The entry at a key, if the table has one. -/
def lookup? (table : Table) (key : String) : Option (Entry Value) :=
  table.find? fun entry => entry.key = key

theorem lookup?_eq_none_iff (table : Table) (key : String) :
    lookup? table key = none ↔ ∀ entry ∈ table, entry.key ≠ key := by
  simp [lookup?]

theorem lookup?_eq_some_iff {table : Table} (distinct : DistinctKeys table) (key : String)
    (entry : Entry Value) : lookup? table key = some entry ↔ entry ∈ table ∧ entry.key = key := by
  constructor
  · intro found
    exact ⟨List.mem_of_find?_eq_some found, by simpa using List.find?_some found⟩
  · rintro ⟨member, rfl⟩
    cases found : lookup? table entry.key with
    | none => exact absurd rfl ((lookup?_eq_none_iff table entry.key).mp found entry member)
    | some other =>
      have same : other.key = entry.key := by simpa using List.find?_some found
      rw [distinct.eq_of_key_eq (List.mem_of_find?_eq_some found) member same]

/-! ### Tables that are built entry by entry -/

namespace Node

/-- Changing the entry at a key keeps all keys; making one adds its key, which was not there. -/
theorem keys_alter? {key : Key} {change : Option (Entry Node) → Option (Entry Node)}
    {entries result : List (Entry Node)}
    (makes : ∀ new, change none = some new → new.key = key.name)
    (keeps : ∀ old new, old.key = key.name → change (some old) = some new → new.key = key.name)
    (altered : alter? key change entries = some result) :
    result.map Entry.key = entries.map Entry.key ∨
      (result.map Entry.key = entries.map Entry.key ++ [key.name] ∧
        key.name ∉ entries.map Entry.key) := by
  induction entries generalizing result with
  | nil =>
    obtain ⟨new, made, rfl⟩ := Option.map_eq_some_iff.mp altered
    exact .inr ⟨by simp [makes new made], by simp⟩
  | cons entry rest ih =>
    rw [alter?] at altered
    split at altered
    next same =>
      obtain ⟨new, made, rfl⟩ := Option.map_eq_some_iff.mp altered
      left
      simp [keeps entry new same made, same]
    next other =>
      obtain ⟨more, made, rfl⟩ := Option.map_eq_some_iff.mp altered
      rcases ih made with same | ⟨added, fresh⟩
      · left
        simp [same]
      · right
        simp [added, fresh, Ne.symm other]

theorem distinctKeys_alter? {key : Key} {change : Option (Entry Node) → Option (Entry Node)}
    {entries result : List (Entry Node)} (distinct : DistinctKeys entries)
    (makes : ∀ new, change none = some new → new.key = key.name)
    (keeps : ∀ old new, old.key = key.name → change (some old) = some new → new.key = key.name)
    (altered : alter? key change entries = some result) : DistinctKeys result := by
  unfold DistinctKeys at distinct ⊢
  rcases keys_alter? makes keeps altered with same | ⟨added, fresh⟩
  · rwa [same]
  · rw [added, ← List.concat_eq_append]
    exact List.Nodup.concat fresh distinct

/-- A step that makes a table of distinct keys of any other. -/
def KeepsDistinct (step : List (Entry Node) → Option (List (Entry Node))) : Prop :=
  ∀ entries result, DistinctKeys entries → step entries = some result → DistinctKeys result

theorem keepsDistinct_alter? {key : Key} {change : Option (Entry Node) → Option (Entry Node)}
    (makes : ∀ new, change none = some new → new.key = key.name)
    (keeps : ∀ old new, old.key = key.name → change (some old) = some new → new.key = key.name) :
    KeepsDistinct (alter? key change) :=
  fun _ _ distinct altered => distinctKeys_alter? distinct makes keeps altered

/-- The key of an entry does not depend on what is filled into its table. -/
theorem key_of_map {inside : Option (List (Entry Node))} {make : List (Entry Node) → Entry Node}
    {name : String} {new : Entry Node} (made : inside.map make = some new)
    (same : ∀ inner, (make inner).key = name) : new.key = name := by
  obtain ⟨inner, -, rfl⟩ := Option.map_eq_some_iff.mp made
  exact same inner

theorem keepsDistinct_assign? (value : Located Value) (path : List Key) :
    KeepsDistinct (assign? value path) := by
  match path with
  | [] =>
    intro entries result _ assigned
    cases assigned
  | [key] =>
    apply keepsDistinct_alter?
    · intro new made
      cases made
      rfl
    · intro old new _ made
      cases made
  | key :: next :: rest =>
    apply keepsDistinct_alter?
    · intro new made
      exact key_of_map made fun _ => rfl
    · -- One case for each kind of node: it is refused or keeps its key and gets other contents.
      intro old new same made
      dsimp only at made
      split at made
      · exact key_of_map made fun _ => same
      · split at made
        · cases made
        · exact key_of_map made fun _ => same
      · split at made
        · cases made
        · exact key_of_map made fun _ => same
      · cases made
      · cases made

theorem keepsDistinct_define? (key : Key) (span : Span)
    (fill : List (Entry Node) → Option (List (Entry Node))) :
    KeepsDistinct (define? key span fill) := by
  apply keepsDistinct_alter?
  · intro new made
    exact key_of_map made fun _ => rfl
  · intro old new same made
    dsimp only at made
    split at made
    · exact key_of_map made fun _ => rfl
    · cases made

theorem keepsDistinct_append? (key : Key) (span : Span)
    (fill : List (Entry Node) → Option (List (Entry Node))) :
    KeepsDistinct (append? key span fill) := by
  apply keepsDistinct_alter?
  · intro new made
    exact key_of_map made fun _ => rfl
  · intro old new same made
    dsimp only at made
    split at made
    · exact key_of_map made fun _ => same
    · cases made

/-- A change below the first part of a header changes no key at the top. -/
theorem keepsDistinct_under? {change : List (Entry Node) → Option (List (Entry Node))}
    (keeps : KeepsDistinct change) (path : List Key) : KeepsDistinct (under? change path) := by
  match path with
  | [] => exact keeps
  | key :: rest =>
    apply keepsDistinct_alter?
    · intro new made
      exact key_of_map made fun _ => rfl
    · intro old new same made
      dsimp only at made
      split at made
      · exact key_of_map made fun _ => same
      · exact key_of_map made fun _ => same
      · cases made

theorem keys_toTable (entries : List (Entry Node)) :
    (toTable entries).map Entry.key = entries.map Entry.key := by
  induction entries with
  | nil => simp [toTable]
  | cons entry rest ih => simp [toTable, ih]

/-- Steps that keep keys distinct do so one after another. -/
theorem keepsDistinct_foldlM {β : Type} {step : List (Entry Node) → β → Option (List (Entry Node))}
    (keeps : ∀ item, KeepsDistinct (fun entries => step entries item)) (items : List β) :
    KeepsDistinct (fun entries => items.foldlM step entries) := by
  induction items with
  | nil =>
    rintro entries _ distinct ⟨⟩
    exact distinct
  | cons item rest ih =>
    intro entries result distinct filled
    change (item :: rest).foldlM step entries = some result at filled
    rw [List.foldlM_cons] at filled
    obtain ⟨middle, first, later⟩ := Option.bind_eq_some_iff.mp filled
    exact ih middle result (keeps item entries middle distinct first) later

end Node

theorem keepsDistinct_fill? (assignments : List Assignment) :
    Node.KeepsDistinct (fill? assignments) := by
  apply Node.keepsDistinct_foldlM
  intro a
  exact Node.keepsDistinct_assign? a.value a.path

theorem keepsDistinct_addTo? (part : Section) : Node.KeepsDistinct (Section.addTo? part) := by
  intro root result distinct added
  unfold Section.addTo? at added
  split at added
  · exact keepsDistinct_fill? part.assignments root result distinct added
  · refine Node.keepsDistinct_under? ?_ _ root result distinct added
    split
    · exact Node.keepsDistinct_append? _ _ _
    · exact Node.keepsDistinct_define? _ _ _

theorem distinctKeys_ofSections? {sections : List Section} {table : Table}
    (built : Table.ofSections? sections = some table) : DistinctKeys table := by
  obtain ⟨root, filled, rfl⟩ := Option.map_eq_some_iff.mp built
  have distinct : DistinctKeys root :=
    Node.keepsDistinct_foldlM keepsDistinct_addTo? sections [] root List.nodup_nil filled
  unfold DistinctKeys
  rwa [Node.keys_toTable]

/-- What a document is read into has distinct keys. -/
theorem distinctKeys_read? {document : String} {table : Table}
    (found : read? document = some table) : DistinctKeys table := by
  obtain ⟨tokens, -, found⟩ := Option.bind_eq_some_iff.mp found
  obtain ⟨statements, -, found⟩ := Option.bind_eq_some_iff.mp found
  exact distinctKeys_ofSections? found

end JavaSource.Toml
