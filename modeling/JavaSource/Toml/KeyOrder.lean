import JavaSource.Toml.Value

/-!
# Entries in key order

Keys are ordered by their characters' code points, which is also the order of their bytes.
-/
namespace JavaSource.Toml

def insertByKey (entry : Entry Value) : Table → Table
  | [] => [entry]
  | first :: rest =>
    if entry.key ≤ first.key then entry :: first :: rest else first :: insertByKey entry rest

def sortByKey (table : Table) : Table := table.foldr insertByKey []

theorem perm_insertByKey (entry : Entry Value) (table : Table) :
    (insertByKey entry table).Perm (entry :: table) := by
  induction table with
  | nil => exact List.Perm.refl _
  | cons first rest ih =>
    simp only [insertByKey]
    split
    · exact List.Perm.refl _
    · exact (ih.cons first).trans (List.Perm.swap entry first rest)

theorem mem_insertByKey (entry other : Entry Value) (table : Table) :
    other ∈ insertByKey entry table ↔ other = entry ∨ other ∈ table := by
  rw [(perm_insertByKey entry table).mem_iff, List.mem_cons]

theorem perm_sortByKey (table : Table) : (sortByKey table).Perm table := by
  induction table with
  | nil => exact List.Perm.refl _
  | cons first rest ih => exact (perm_insertByKey first _).trans (ih.cons first)

theorem pairwise_insertByKey (entry : Entry Value) (table : Table)
    (ordered : table.Pairwise fun first second => first.key ≤ second.key) :
    (insertByKey entry table).Pairwise fun first second => first.key ≤ second.key := by
  induction table with
  | nil => exact List.pairwise_singleton _ _
  | cons first rest ih =>
    have least := List.pairwise_cons.mp ordered
    simp only [insertByKey]
    split
    next before =>
      refine List.pairwise_cons.mpr ⟨?_, ordered⟩
      intro other member
      rcases List.mem_cons.mp member with rfl | member
      · exact before
      · exact String.le_trans before (least.1 other member)
    next after =>
      refine List.pairwise_cons.mpr ⟨?_, ih least.2⟩
      intro other member
      rcases (mem_insertByKey entry other rest).mp member with rfl | member
      · exact (String.le_total first.key other.key).resolve_right after
      · exact least.1 other member

theorem pairwise_sortByKey (table : Table) :
    (sortByKey table).Pairwise fun first second => first.key ≤ second.key := by
  induction table with
  | nil => exact List.Pairwise.nil
  | cons first rest ih => exact pairwise_insertByKey first _ ih

end JavaSource.Toml
