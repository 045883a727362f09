import JavaSource.Toml.Value

/-!
# Building tables

A table is built entry by entry from keys of several parts. What may be put into a table depends on
how it came to be: written as a value, defined by a header, implied by the header of a table inside
it, or made by a dotted key.

A value given to a dotted key makes the tables on the way, or goes on through tables that dotted
keys made; it adds nothing to a table that a header defines. A header goes on through any table but
one written as a value; of an array of tables it means the latest. It defines a table once: a new
one, or one that so far was only implied.
-/
namespace JavaSource.Toml

/-- One part of a key, as it is written. -/
structure Key where
  name : String
  span : Span
  deriving DecidableEq, Repr

inductive Origin where
  | header
  | implied
  | dotted
  deriving DecidableEq, Repr

/-- A table under construction holds finished values, tables that may grow, and arrays of tables
of which the latest may grow. -/
inductive Node where
  | leaf (value : Value)
  | table (origin : Origin) (entries : List (Entry Node))
  | tables (earlier : List (Located Value)) (span : Span) (latest : List (Entry Node))

namespace Node

mutual

def toValue : Node → Value
  | .leaf value => value
  | .table _ entries => .table (toTable entries)
  | .tables earlier span latest => .array (earlier ++ [⟨.table (toTable latest), span⟩])

def toTable : List (Entry Node) → Table
  | [] => []
  | ⟨key, keySpan, node, span⟩ :: rest => ⟨key, keySpan, toValue node, span⟩ :: toTable rest

end

/-- Changes the entry at a key, or adds the one that `change` makes of nothing. -/
def alter? (key : Key) (change : Option (Entry Node) → Option (Entry Node)) :
    List (Entry Node) → Option (List (Entry Node))
  | [] => (change none).map ([·])
  | entry :: rest =>
    if entry.key = key.name then (change (some entry)).map (· :: rest)
    else (alter? key change rest).map (entry :: ·)

def entry (key : Key) (node : Node) (span : Span) : Entry Node := ⟨key.name, key.span, node, span⟩

/-- Gives a value to a key. -/
def assign? (value : Located Value) : List Key → List (Entry Node) → Option (List (Entry Node))
  | [] => fun _ => none
  | [key] => alter? key fun
    | none => some (entry key (.leaf value.value) value.span)
    | some _ => none
  | key :: next :: rest =>
    let inside := assign? value (next :: rest)
    alter? key fun
    | none => (inside []).map fun inner => entry key (.table .dotted inner) key.span
    | some old =>
      match old.value with
      | .table .dotted inner =>
        (inside inner).map fun inner => { old with value := .table .dotted inner }
      | .table .implied inner =>
        if rest.isEmpty then none
        else (inside inner).map fun inner => { old with value := .table .implied inner }
      | .tables earlier span latest =>
        if rest.isEmpty then none
        else (inside latest).map fun latest => { old with value := .tables earlier span latest }
      | .table .header _ => none
      | .leaf _ => none

/-- Changes the table that the first parts of a header lead to. -/
def under? (change : List (Entry Node) → Option (List (Entry Node))) :
    List Key → List (Entry Node) → Option (List (Entry Node))
  | [] => change
  | key :: rest =>
    let inside := under? change rest
    alter? key fun
    | none => (inside []).map fun inner => entry key (.table .implied inner) key.span
    | some old =>
      match old.value with
      | .table origin inner =>
        (inside inner).map fun inner => { old with value := .table origin inner }
      | .tables earlier span latest =>
        (inside latest).map fun latest => { old with value := .tables earlier span latest }
      | .leaf _ => none

/-- Defines the table of a header, with what its lines put into it. -/
def define? (key : Key) (span : Span) (fill : List (Entry Node) → Option (List (Entry Node))) :
    List (Entry Node) → Option (List (Entry Node)) :=
  alter? key fun
  | none => (fill []).map fun inner => entry key (.table .header inner) span
  | some old =>
    match old.value with
    | .table .implied inner =>
      (fill inner).map fun inner => entry key (.table .header inner) span
    | _ => none

/-- Adds a table to the array of tables of a header; the array stands at its first header. -/
def append? (key : Key) (span : Span) (fill : List (Entry Node) → Option (List (Entry Node))) :
    List (Entry Node) → Option (List (Entry Node)) :=
  alter? key fun
  | none => (fill []).map fun inner => entry key (.tables [] span inner) span
  | some old =>
    match old.value with
    | .tables earlier first latest =>
      (fill []).map fun inner =>
        { old with value := .tables (earlier ++ [⟨.table (toTable latest), first⟩]) span inner }
    | _ => none

end Node

/-- A value given to a key of one or more parts. -/
structure Assignment where
  path : List Key
  value : Located Value

def fill? (assignments : List Assignment) (entries : List (Entry Node)) :
    Option (List (Entry Node)) :=
  assignments.foldlM (fun entries a => Node.assign? a.value a.path entries) entries

/-- The table of the assignments between two braces. -/
def Table.ofAssignments? (assignments : List Assignment) : Option Table :=
  (fill? assignments []).map Node.toTable

/-- The header `[a.b]` has the parents `a` and the key `b`; `[[a.b]]` adds a table to an array. -/
structure Header where
  parents : List Key
  key : Key
  span : Span
  inArray : Bool
  deriving DecidableEq, Repr

/-- A header and the assignments up to the next one; only the first section has no header. -/
structure Section where
  header : Option Header := none
  assignments : List Assignment := []

def Section.addTo? (part : Section) (root : List (Entry Node)) : Option (List (Entry Node)) :=
  let fill := fill? part.assignments
  match part.header with
  | none => fill root
  | some header =>
    let change := if header.inArray then Node.append? else Node.define?
    Node.under? (change header.key header.span fill) header.parents root

def Table.ofSections? (sections : List Section) : Option Table :=
  (sections.foldlM (fun root part => Section.addTo? part root) []).map Node.toTable

end JavaSource.Toml
