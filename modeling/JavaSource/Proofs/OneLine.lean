import JavaSource.Proofs.Collecting
import JavaSource.Proofs.Layout
import JavaSource.Proofs.Literals

/-!
# Lines hold no line feed

Names, signatures, statements, annotations and the texts of custom members may be anything, and a
line feed in one of them breaks its line. Comment texts and string values cannot do that: comments
are split at line feeds, and literals escape them.
-/
namespace JavaSource

/-- A text that cannot break a line. -/
def OneLine (text : String) : Prop := '\n' ∉ text.toList

instance (text : String) : Decidable (OneLine text) :=
  inferInstanceAs (Decidable ('\n' ∉ text.toList))

theorem OneLine.append {first second : String} (left : OneLine first) (right : OneLine second) :
    OneLine (first ++ second) := by
  simp_all [OneLine]

namespace Text

theorem newline_not_mem_splitLines {text line : List Char} (member : line ∈ splitLines text) :
    '\n' ∉ line := by
  fun_induction splitLines text generalizing line with
  | case1 => cases member
  | case2 rest ih =>
    rcases List.mem_cons.mp member with rfl | later
    · exact List.not_mem_nil
    · exact ih later
  | case3 rest ih =>
    rcases List.mem_cons.mp member with rfl | later
    · exact List.not_mem_nil
    · exact ih later
  | case4 c rest other _ _ _ =>
    rw [List.mem_singleton.mp member, List.mem_singleton]
    exact fun same => other same.symm
  | case5 c rest other _ first more found ih =>
    rw [found] at ih
    rcases List.mem_cons.mp member with rfl | later
    · intro newline
      rcases List.mem_cons.mp newline with same | inside
      · exact other same.symm
      · exact ih List.mem_cons_self inside
    · exact ih (List.mem_cons_of_mem _ later)

theorem mem_of_mem_trimChars {text : List Char} {c : Char} (member : c ∈ trimChars text) :
    c ∈ text := by
  unfold trimChars trimEnd trimStart at member
  have inner := List.mem_reverse.mp ((List.dropWhile_sublist _).subset (List.mem_reverse.mp member))
  exact (List.dropWhile_sublist _).subset inner

theorem oneLine_of_mem_lines {text line : String} (member : line ∈ (lines text).map trim) :
    OneLine line := by
  obtain ⟨whole, mem, rfl⟩ := List.mem_map.mp member
  obtain ⟨chars, split, rfl⟩ := List.mem_map.mp mem
  intro newline
  rw [toList_trim, String.toList_ofList] at newline
  exact newline_not_mem_splitLines split (mem_of_mem_trimChars newline)

/-- Whole lines can be read back from their text. -/
theorem terminated_inj {first second : List String} (whole : ∀ line ∈ first, OneLine line)
    (other_whole : ∀ line ∈ second, OneLine line) (same : terminated first = terminated second) :
    first = second := by
  rw [← String.toList_inj] at same
  induction first generalizing second with
  | nil =>
    cases second with
    | nil => rfl
    | cons line rest => simp at same
  | cons line rest ih =>
    cases second with
    | nil => simp at same
    | cons other more =>
      simp only [terminated_cons, String.toList_append, List.append_assoc] at same
      obtain ⟨here, later⟩ := Delimited.append_inj (whole line List.mem_cons_self)
        (other_whole other List.mem_cons_self) same
      have there := ih (fun line mem => whole line (List.mem_cons_of_mem _ mem))
        (fun line mem => other_whole line (List.mem_cons_of_mem _ mem)) later
      rw [String.toList_inj.mp here, there]

end Text

/-! ### Documentation -/

namespace Doc

/-- The documentation that some steps leave, none of which adds an annotation of several lines. -/
def SingleLine (doc : Doc) : Prop :=
  ∃ steps, doc = ofSteps steps ∧ ∀ text, Step.annotate text ∈ steps → OneLine text

/-- Neither a comment line nor an annotation breaks a line. -/
structure Unbroken (doc : Doc) : Prop where
  lines : ∀ line ∈ doc.lines, OneLine line
  annotations : ∀ text ∈ doc.annotations, OneLine text

/-- Comment texts are split at line feeds before anything is kept of them. -/
theorem oneLine_of_mem_lines_ofSteps {steps : List Step} {line : String}
    (member : line ∈ (ofSteps steps).lines) : OneLine line := by
  rw [lines_ofSteps] at member
  obtain ⟨whole, mem, rfl⟩ := List.mem_map.mp member
  obtain ⟨text, -, inside⟩ := List.mem_flatMap.mp (List.mem_filter.mp mem).1
  exact Text.oneLine_of_mem_lines (List.mem_map_of_mem inside)

theorem SingleLine.unbroken {doc : Doc} (single : doc.SingleLine) : doc.Unbroken := by
  obtain ⟨steps, rfl, annotations⟩ := single
  exact ⟨fun _ => oneLine_of_mem_lines_ofSteps,
    fun text member => annotations text ((mem_annotations_ofSteps steps text).mp member)⟩

theorem oneLine_commentLine {line : String} (single : OneLine line) :
    OneLine (commentLine line) := by
  unfold commentLine
  split
  · simp [OneLine]
  · exact OneLine.append (by simp [OneLine]) single

theorem Unbroken.contents {doc : Doc} (unbroken : doc.Unbroken) :
    ∀ content ∈ doc.contents, OneLine content := by
  intro content member
  unfold Doc.contents commentLines at member
  simp only [List.mem_append, List.mem_map] at member
  rcases member with ((block | deprecated) | system) | ⟨text, mem, rfl⟩
  · split at block
    · cases block
    · simp only [List.mem_append, List.mem_cons, List.mem_map, List.not_mem_nil, or_false] at block
      rcases block with (rfl | ⟨line, mem, rfl⟩) | rfl
      · simp [OneLine]
      · exact oneLine_commentLine (unbroken.lines line mem)
      · simp [OneLine]
  · split at deprecated <;> simp_all [OneLine]
  · split at system <;> simp_all [OneLine]
  · exact OneLine.append (by simp [OneLine]) (unbroken.annotations text mem)

end Doc

/-! ### Literals -/

namespace Literal

theorem newline_not_mem_escape (c : Char) : '\n' ∉ escape c := by
  unfold escape
  split
  · decide
  · decide
  · decide
  · decide
  · decide
  next other _ _ =>
    split
    · intro member
      rw [List.mem_cons, List.mem_cons] at member
      rcases member with slash | u | hex
      · cases slash
      · cases u
      · obtain ⟨part, small, same⟩ := Text.exists_digit_of_mem_fixedDigits (by decide) hex
        exact absurd (isAlphanum_digit part small) (by simp [← same])
    · intro member
      exact other (List.mem_singleton.mp member).symm

theorem oneLine_text (kind : LiteralKind) (value : kind.Value) : OneLine (text kind value) := by
  by_cases no_string : kind ≠ .string
  · exact not_mem_text no_string (by decide) value
  -- Inside a string every line feed is escaped.
  · obtain rfl := Classical.not_not.mp no_string
    unfold OneLine
    simp only [text, string, String.toList_ofList, List.mem_cons, List.mem_append, List.mem_flatMap]
    rintro ((quote | ⟨c, -, newline⟩) | quote | none)
    · cases quote
    · exact newline_not_mem_escape c newline
    · cases quote
    · cases none

theorem oneLine_javaType (kind : LiteralKind) : OneLine kind.javaType := by
  cases kind <;> decide

end Literal

/-! ### Members -/

namespace Member

/-- A member whose own texts break no line; comments and string values may be anything. -/
def SingleLine : Member → Prop
  | .nested head _ => OneLine head.name ∧ head.doc.SingleLine
  | .method m => OneLine m.signature ∧ (∀ statement ∈ m.statements, OneLine statement) ∧
    m.doc.SingleLine
  | .field f => OneLine f.name ∧ f.doc.SingleLine
  | .array a => OneLine a.name ∧ a.doc.SingleLine
  | .custom c => OneLine c.text

end Member

theorem ClassHead.oneLine_content {head : ClassHead} (single : OneLine head.name) :
    OneLine head.content := by
  unfold OneLine content at *
  split <;> simp [single]

theorem Method.oneLine_contents {method : Method} (single : (Member.method method).SingleLine) :
    ∀ content ∈ method.contents, OneLine content := by
  obtain ⟨signature, statements, doc⟩ := single
  intro content member
  unfold contents opening at member
  simp only [List.mem_append, List.mem_singleton, List.mem_map] at member
  rcases member with ((inside | rfl) | ⟨statement, mem, rfl⟩) | rfl
  · exact doc.unbroken.contents content inside
  · exact signature.append (by decide)
  · exact OneLine.append (by decide) (statements statement mem)
  · decide

theorem Field.oneLine_content {field : Field} (finalFields : Bool) (single : OneLine field.name) :
    OneLine (field.content finalFields) := by
  have kind := Literal.oneLine_javaType field.kind
  have value := Literal.oneLine_text field.kind field.value
  unfold OneLine content at *
  cases finalFields <;> simp [single, kind, value]

namespace ConstantArray

theorem oneLine_opening {array : ConstantArray} (single : OneLine array.name) :
    OneLine array.opening := by
  have kind := Literal.oneLine_javaType array.kind
  unfold OneLine opening at *
  simp [single, kind]

theorem flatten_groups {α : Type} (items : List α) : (groups items).flatten = items := by
  fun_induction groups items <;> simp_all

theorem oneLine_intercalate (group : List String) (single : ∀ text ∈ group, OneLine text) :
    OneLine (", ".intercalate group) := by
  induction group with
  | nil => decide
  | cons text rest ih =>
    have first := single text List.mem_cons_self
    have later := ih (fun other member => single other (List.mem_cons_of_mem _ member))
    cases rest with
    | nil => simpa using first
    | cons next more =>
      rw [String.intercalate_cons_cons]
      exact (first.append (by decide)).append later

theorem oneLine_rowTexts (groups : List (List String))
    (single : ∀ group ∈ groups, ∀ text ∈ group, OneLine text) :
    ∀ row ∈ rowTexts groups, OneLine row := by
  induction groups with
  | nil => simp [rowTexts]
  | cons group more ih =>
    intro row member
    rw [rowTexts_cons] at member
    rcases List.mem_cons.mp member with rfl | later
    · apply (oneLine_intercalate group (single group List.mem_cons_self)).append
      split <;> decide
    · exact ih (fun other mem => single other (List.mem_cons_of_mem _ mem)) row later

theorem oneLine_rows (array : ConstantArray) : ∀ row ∈ array.rows, OneLine row := by
  apply oneLine_rowTexts
  intro group mem text inside
  have literal : text ∈ (groups array.literals).flatten := List.mem_flatten.mpr ⟨group, mem, inside⟩
  rw [flatten_groups] at literal
  obtain ⟨value, -, rfl⟩ := List.mem_map.mp literal
  exact Literal.oneLine_text array.kind value

end ConstantArray

namespace Line

/-- Whether the text of a line, if it has one, stands on that line alone. -/
def Unbroken : Line → Prop
  | .blank _ => True
  | .text _ content => OneLine content

theorem unbroken_texts (depth : Nat) {contents : List String}
    (single : ∀ content ∈ contents, OneLine content) :
    ∀ line ∈ texts depth contents, line.Unbroken := by
  intro line member
  obtain ⟨content, mem, rfl⟩ := List.mem_map.mp member
  exact single content mem

theorem unbroken_opened {doc : Doc} {opening : String} (depth : Nat) (single : doc.SingleLine)
    (opens : OneLine opening) :
    ∀ line ∈ texts depth (doc.contents ++ [opening]), line.Unbroken := by
  apply unbroken_texts
  intro content member
  rcases List.mem_append.mp member with inside | last
  · exact single.unbroken.contents content inside
  · rwa [List.mem_singleton.mp last]

end Line

namespace Member

/-- No line of a layout is broken when no text of the tree breaks one. -/
theorem unbroken_layout (finalFields : Bool) (member : Member)
    (single : ∀ node ∈ member.nodes, node.SingleLine) (depth : Nat) :
    ∀ line ∈ member.layout finalFields depth, line.Unbroken := by
  induction member using Member.induction generalizing depth with
  | nested head members ih =>
    obtain ⟨name, doc⟩ := single _ (mem_nodes_self _)
    intro line mem
    unfold layout at mem
    split at mem
    · rw [List.mem_singleton.mp mem]
      trivial
    · rw [innerLayout_eq_flatMap, List.mem_append, List.mem_append, List.mem_flatMap] at mem
      rcases mem with (opening | ⟨member, inside, mem⟩) | closing
      · exact Line.unbroken_opened depth doc (ClassHead.oneLine_content name) line opening
      · exact ih member inside (forall_nodes_nested single member inside) (depth + 1) line mem
      · rw [List.mem_singleton.mp closing]
        exact (by decide : OneLine "\x7d")
  | method m =>
    exact Line.unbroken_texts depth (Method.oneLine_contents (single _ (mem_nodes_self _)))
  | field f =>
    obtain ⟨name, doc⟩ := single _ (mem_nodes_self _)
    exact Line.unbroken_opened depth doc (Field.oneLine_content finalFields name)
  | array a =>
    obtain ⟨name, doc⟩ := single _ (mem_nodes_self _)
    intro line mem
    rw [layout, ConstantArray.layout, List.mem_append, List.mem_append] at mem
    rcases mem with (opening | rows) | closing
    · exact Line.unbroken_opened depth doc (ConstantArray.oneLine_opening name) line opening
    · exact Line.unbroken_texts (depth + 2) a.oneLine_rows line rows
    · rw [List.mem_singleton.mp closing]
      exact (by decide : OneLine "\x7d;")
  | custom c =>
    intro line mem
    rw [List.mem_singleton.mp mem]
    exact single _ (mem_nodes_self _)

end Member

end JavaSource
