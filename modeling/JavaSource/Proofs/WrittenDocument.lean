import JavaSource.Proofs.DistinctKeys
import JavaSource.Proofs.WrittenTokens

/-!
# Documents written and read back

A document can be written as lines that each give a value to a bare key. If the keys are distinct
and the value on each line is one that can be read there, the document is read into a table with an
entry for each line, in the order of the lines.
-/
namespace JavaSource.Toml

open Token (place)

/-- A line of a document: a bare key and the lexemes of its value. -/
structure Pair where
  key : String
  value : List Lexeme

def Pair.lexemes (pair : Pair) : List Lexeme :=
  .atom pair.key.toList :: .equals :: (pair.value ++ [.newline])

def writeDocument (pairs : List Pair) : String :=
  String.ofList ((pairs.flatMap Pair.lexemes).flatMap Lexeme.write)

/-- The lexemes read as a value of this shape, wherever they stand before a line end. -/
def Spells (lexemes : List Lexeme) (Shape : Value → Prop) : Prop :=
  ∀ offset steps span rest, lexemes.length ≤ steps → ∃ value : Located Value, Shape value.value ∧
    value? steps maxDepth (place offset lexemes ++ ⟨.newline, span, []⟩ :: rest) =
      some (value, ⟨.newline, span, []⟩ :: rest)

/-- A line that can be read: its value is one, and ends where the line does. -/
structure Pair.Readable (pair : Pair) : Prop where
  bare : Lexeme.IsBareWord pair.key.toList
  separate : Lexeme.Separate (pair.value ++ [.newline])
  value : Spells pair.value fun _ => True

/-- Where the parts of a line stand does not matter to what is read. -/
theorem Pair.exists_place_lexemes (pair : Pair) (offset : Nat) :
    ∃ first second start span, place offset pair.lexemes =
      ⟨.atom pair.key.toList, first, []⟩ :: ⟨.equals, second, []⟩ ::
        (place start pair.value ++ [⟨.newline, span, []⟩]) := by
  simp only [lexemes, place, Token.place_append]
  exact ⟨_, _, _, _, rfl⟩

theorem Pair.Readable.separate_lexemes {pair : Pair} (readable : pair.Readable) :
    Lexeme.Separate pair.lexemes :=
  .cons (.word readable.bare ⟨'=', rfl⟩) (.cons (.mark ⟨'=', rfl⟩) readable.separate)

/-! ### One line -/

/-- The value at the key of the line has every shape that the line spells. -/
structure Pair.Assigns (pair : Pair) (a : Assignment) : Prop where
  path : ∃ span, a.path = [⟨pair.key, span⟩]
  shape : ∀ Shape, Spells pair.value Shape → Shape a.value.value

theorem path?_bare {chars : List Char} (bare : Lexeme.IsBareWord chars) (span other : Span)
    (rest : List Token) :
    Key.path? (⟨.atom chars, span, []⟩ :: ⟨.equals, other, []⟩ :: rest) =
      some ([⟨String.ofList chars, span⟩], ⟨.equals, other, []⟩ :: rest) := by
  have all_bare : chars.all Key.isBare = true := List.all_eq_true.mpr bare.2
  simp [Key.path?, Key.parts?, Key.ofToken?, all_bare, maxDepth]

theorem assignment?_place {pair : Pair} (readable : pair.Readable) (offset : Nat)
    (rest : List Token) :
    ∃ span a, pair.Assigns a ∧
      Statement.assignment? (place offset pair.lexemes ++ rest) =
        some (a, ⟨.newline, span, []⟩ :: rest) := by
  obtain ⟨first, second, start, span, shape⟩ := pair.exists_place_lexemes offset
  have enough : pair.value.length ≤
      2 * (place start pair.value ++ ⟨.newline, span, []⟩ :: rest).length + 2 := by
    rw [List.length_append, Token.length_place]
    omega
  obtain ⟨value, -, found⟩ := readable.value start _ span rest enough
  refine ⟨span, ⟨[⟨pair.key, first⟩], value⟩, ⟨⟨_, rfl⟩, fun Shape spells => ?_⟩, ?_⟩
  · -- The value is read once, so what has the shape is this value.
    obtain ⟨other, holds, again⟩ := spells start _ span rest enough
    rw [found] at again
    cases again
    exact holds
  · rw [shape]
    simp only [List.cons_append, List.append_assoc, List.nil_append]
    rw [Statement.assignment?, path?_bare readable.bare]
    simp only [Option.bind_eq_bind, Option.bind_some, found, String.ofList_toList]

/-- A line that begins with a bare key is read as an assignment, and the next lines after it. -/
theorem readAll?_of_assignment? {chars : List Char} {first span : Span} {tokens rest : List Token}
    {a : Assignment}
    (read : Statement.assignment? (⟨.atom chars, first, []⟩ :: tokens) =
      some (a, ⟨.newline, span, []⟩ :: rest)) (steps : Nat) :
    Statement.readAll? (steps + 1) (⟨.atom chars, first, []⟩ :: tokens) =
      (Statement.readAll? steps rest).map (.assignment a :: ·) := by
  have kept : dropNewlines (⟨.atom chars, first, []⟩ :: tokens) =
      ⟨.atom chars, first, []⟩ :: tokens := rfl
  have statement : Statement.read? (⟨.atom chars, first, []⟩ :: tokens) =
      some (.assignment a, ⟨.newline, span, []⟩ :: rest) := by
    rw [Statement.read?, read]
    · rfl
    · simp
  rw [Statement.readAll?, kept]
  · simp only [statement, Option.bind_eq_bind, Option.bind_some]
    cases Statement.readAll? steps rest <;> rfl
  · simp

/-- Lines are read one after another. -/
theorem readAll?_place {pairs : List Pair} (readable : ∀ pair ∈ pairs, pair.Readable)
    {steps : Nat} (enough : pairs.length ≤ steps) (offset : Nat) :
    ∃ assignments, List.Forall₂ Pair.Assigns pairs assignments ∧
      Statement.readAll? steps (place offset (pairs.flatMap Pair.lexemes)) =
        some (assignments.map .assignment) := by
  induction pairs generalizing steps offset with
  | nil => exact ⟨[], .nil, by cases steps <;> rfl⟩
  | cons pair rest ih =>
    obtain ⟨left, rfl⟩ := Nat.exists_eq_add_of_le' (Nat.lt_of_lt_of_le (Nat.succ_pos _) enough)
    -- Where the next line begins does not matter, so any offset will do.
    rw [List.flatMap_cons, Token.place_append]
    generalize offset + Text.byteSize (pair.lexemes.flatMap Lexeme.write) = next
    obtain ⟨more, others, later⟩ := ih
      (fun other member => readable other (List.mem_cons_of_mem _ member))
      (Nat.le_of_succ_le_succ enough) next
    obtain ⟨span, a, assigns, read⟩ := assignment?_place (readable pair List.mem_cons_self) offset
      (place next (rest.flatMap Pair.lexemes))
    obtain ⟨first, second, start, _, shape⟩ := pair.exists_place_lexemes offset
    rw [shape, List.cons_append] at read ⊢
    refine ⟨a :: more, .cons assigns others, ?_⟩
    rw [readAll?_of_assignment? read, later]
    rfl

theorem sections_map_assignment (assignments : List Assignment) :
    Statement.sections (assignments.map .assignment) = (assignments, []) := by
  induction assignments with
  | nil => rfl
  | cons a rest ih => rw [List.map_cons, Statement.sections, ih]

/-! ### The table -/

namespace Node

/-- An entry for a key that is not there yet is added after the others. -/
theorem alter?_of_not_mem {key : Key} (change : Option (Entry Node) → Option (Entry Node))
    {entries : List (Entry Node)} (fresh : key.name ∉ entries.map Entry.key) :
    alter? key change entries = (change none).map fun new => entries ++ [new] := by
  induction entries with
  | nil => rfl
  | cons entry rest ih =>
    rw [List.map_cons, List.mem_cons, not_or] at fresh
    rw [alter?, if_neg (Ne.symm fresh.1), ih fresh.2]
    cases change none <;> rfl

/-- The entry of a finished value in a table under construction. -/
def ofEntry (entry : Entry Value) : Entry Node :=
  ⟨entry.key, entry.keySpan, .leaf entry.value, entry.span⟩

theorem toTable_map_ofEntry (table : Table) : toTable (table.map ofEntry) = table := by
  induction table with
  | nil => simp [toTable]
  | cons entry rest ih => simp [toTable, ofEntry, toValue, ih]

end Node

/-- The entry that a line puts into the table. -/
structure Pair.Gives (pair : Pair) (entry : Entry Value) : Prop where
  key : entry.key = pair.key
  shape : ∀ Shape, Spells pair.value Shape → Shape entry.value

theorem fill?_assigns {pairs : List Pair} {assignments : List Assignment}
    (assigns : List.Forall₂ Pair.Assigns pairs assignments) (distinct : (pairs.map Pair.key).Nodup)
    (entries : List (Entry Node)) (fresh : ∀ pair ∈ pairs, pair.key ∉ entries.map Entry.key) :
    ∃ table, List.Forall₂ Pair.Gives pairs table ∧
      fill? assignments entries = some (entries ++ table.map Node.ofEntry) := by
  induction assigns generalizing entries with
  | nil => exact ⟨[], .nil, by rw [List.map_nil, List.append_nil]; rfl⟩
  | @cons pair a pairs assignments assigns _ ih =>
    obtain ⟨new, later⟩ := List.nodup_cons.mp distinct
    obtain ⟨span, path⟩ := assigns.path
    -- The first line adds an entry that none of the others is about.
    let entry : Entry Value := ⟨pair.key, span, a.value.value, a.value.span⟩
    have added : Node.assign? a.value a.path entries = some (entries ++ [Node.ofEntry entry]) := by
      rw [path, Node.assign?, Node.alter?_of_not_mem _ (fresh pair List.mem_cons_self)]
      rfl
    have others : ∀ other ∈ pairs,
        other.key ∉ (entries ++ [Node.ofEntry entry]).map Entry.key := by
      intro other member
      rw [List.map_append, List.mem_append, not_or]
      refine ⟨fresh other (List.mem_cons_of_mem _ member), fun same => new ?_⟩
      have equal : other.key = pair.key := List.mem_singleton.mp same
      exact equal ▸ List.mem_map_of_mem member
    obtain ⟨table, gives, filled⟩ := ih later (entries ++ [Node.ofEntry entry]) others
    refine ⟨entry :: table, .cons ⟨rfl, assigns.shape⟩ gives, ?_⟩
    rw [fill?, List.foldlM_cons, added]
    refine filled.trans ?_
    simp

theorem keys_of_gives {pairs : List Pair} {table : Table}
    (gives : List.Forall₂ Pair.Gives pairs table) :
    table.map Entry.key = pairs.map Pair.key := by
  induction gives with
  | nil => rfl
  | cons here _ ih => rw [List.map_cons, List.map_cons, here.key, ih]

theorem exists_mem_of_gives {pairs : List Pair} {table : Table}
    (gives : List.Forall₂ Pair.Gives pairs table) {pair : Pair} (member : pair ∈ pairs) :
    ∃ entry ∈ table, pair.Gives entry := by
  induction gives with
  | nil => cases member
  | @cons first entry _ _ here _ ih =>
    rcases List.mem_cons.mp member with rfl | later
    · exact ⟨entry, List.mem_cons_self, here⟩
    · obtain ⟨other, inside, there⟩ := ih later
      exact ⟨other, List.mem_cons_of_mem _ inside, there⟩

/-- The entry at the key of a line is the one that the line puts there. -/
theorem lookup?_of_gives {pairs : List Pair} {table : Table}
    (gives : List.Forall₂ Pair.Gives pairs table) (distinct : (pairs.map Pair.key).Nodup)
    {pair : Pair} (member : pair ∈ pairs) :
    ∃ entry, lookup? table pair.key = some entry ∧ pair.Gives entry := by
  have keys : DistinctKeys table := by rwa [DistinctKeys, keys_of_gives gives]
  obtain ⟨entry, inside, here⟩ := exists_mem_of_gives gives member
  exact ⟨entry, (lookup?_eq_some_iff keys _ _).mpr ⟨inside, here.key⟩, here⟩

/-! ### The document -/

theorem separate_flatMap_lexemes {pairs : List Pair} (readable : ∀ pair ∈ pairs, pair.Readable) :
    Lexeme.Separate (pairs.flatMap Pair.lexemes) := by
  induction pairs with
  | nil => exact .nil
  | cons pair rest ih =>
    rw [List.flatMap_cons]
    exact (readable pair List.mem_cons_self).separate_lexemes.append
      (ih fun other member => readable other (List.mem_cons_of_mem _ member))

theorem length_le_length_flatMap_lexemes (pairs : List Pair) :
    pairs.length ≤ (pairs.flatMap Pair.lexemes).length := by
  induction pairs with
  | nil => exact Nat.le_refl 0
  | cons pair rest ih =>
    simp only [List.flatMap_cons, List.length_append, List.length_cons, Pair.lexemes]
    omega

/-- A document that begins with a bare key has no byte order mark in front. -/
theorem scan?_writeDocument {pairs : List Pair} (readable : ∀ pair ∈ pairs, pair.Readable) :
    Token.scan? (writeDocument pairs) = some (place 0 (pairs.flatMap Pair.lexemes)) := by
  have separate := separate_flatMap_lexemes readable
  rw [Token.scan?, writeDocument, String.toList_ofList]
  split
  next rest marked =>
    cases pairs with
    | nil => cases marked
    | cons pair more =>
      have bare := (readable pair List.mem_cons_self).bare
      obtain ⟨c, others, key⟩ := List.exists_cons_of_ne_nil bare.1
      have first := bare.2 c (by simp [key])
      simp only [List.flatMap_cons, Pair.lexemes, List.cons_append, Lexeme.write, key] at marked
      rw [(List.cons.inj marked).1] at first
      exact absurd first (by decide)
  next =>
    exact Token.scanFrom?_flatMap_write separate
      (Token.length_le_length_flatMap_write separate) 0

/-- A document of lines that can be read, with distinct keys, is read into the entries of these
lines. -/
theorem read?_writeDocument {pairs : List Pair} (readable : ∀ pair ∈ pairs, pair.Readable)
    (distinct : (pairs.map Pair.key).Nodup) :
    ∃ table, read? (writeDocument pairs) = some table ∧ List.Forall₂ Pair.Gives pairs table := by
  obtain ⟨assignments, assigns, read⟩ := readAll?_place readable
    (length_le_length_flatMap_lexemes pairs) 0
  obtain ⟨table, gives, filled⟩ := fill?_assigns assigns distinct [] (by simp)
  refine ⟨table, ?_, gives⟩
  rw [read?, scan?_writeDocument readable]
  simp only [Option.bind_eq_bind, Option.bind_some, Token.length_place, read]
  -- No line is a header, so there is one section, and it has none.
  have built : Table.ofSections? [⟨none, assignments⟩] = some table := by
    rw [Table.ofSections?, List.foldlM_cons, Section.addTo?, filled]
    simp [Node.toTable_map_ofEntry]
  rw [Table.ofStatements?, sections_map_assignment]
  exact built

end JavaSource.Toml
