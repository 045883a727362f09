import JavaSource.Doc
import JavaSource.Proofs.Trimming

/-!
# Documentation from lines and annotations

A step of documentation adds lines of comment text or an annotation. A line counts by itself: it is
trimmed and kept, unless it has the tag of system API on it, and each tag is met or not. So the
documentation after a run of steps can be told from all its lines and all its annotations at once,
and what is true of it needs no further induction over the run.
-/
namespace JavaSource.Doc

/-- Whether a tag stands anywhere in a line. -/
def Mentions (tag : List Char) (line : String) : Prop := tag <:+: line.toList

instance (tag : List Char) (line : String) : Decidable (Mentions tag line) :=
  inferInstanceAs (Decidable (tag <:+: line.toList))

theorem occurs_eq_decide (tag : List Char) (line : String) :
    Text.occurs tag line.toList = decide (Mentions tag line) := by
  rw [Bool.eq_iff_iff, Text.occurs_iff, decide_eq_true_iff]
  rfl

/-- A tag has no blanks, so trimming a line does not hide it. -/
theorem mentions_trim_iff (line : String) :
    Mentions systemApiTag (Text.trim line) ↔ Mentions systemApiTag line := by
  have visible : systemApiTag.all (!Text.isBlank ·) = true := by decide
  exact Text.infix_trim_iff (by simpa using visible) line

/-- The lines that are kept of the lines of comment texts. -/
def kept (input : List String) : List String :=
  (input.filter (¬ Mentions systemApiTag ·)).map Text.trim

/-- The documentation with more lines of comment texts, as they stand there, and with more
annotations. -/
def collect (doc : Doc) (input annotations : List String) : Doc where
  lines := doc.lines ++ kept input
  deprecated := doc.deprecated || (kept input).any (Mentions deprecatedTag ·)
  systemApi := doc.systemApi || input.any (Mentions systemApiTag ·)
  annotations := doc.annotations ++ annotations

theorem collect_nil (doc : Doc) : doc.collect [] [] = doc := by
  simp [collect, kept]

theorem collect_collect (doc : Doc) (input more annotations others : List String) :
    (doc.collect input annotations).collect more others =
      doc.collect (input ++ more) (annotations ++ others) := by
  simp [collect, kept, Bool.or_assoc]

theorem addLine_trim (doc : Doc) (line : String) :
    doc.addLine (Text.trim line) = doc.collect [line] [] := by
  rw [addLine, occurs_eq_decide, occurs_eq_decide]
  -- The tag is looked for in the trimmed line, but stands in the line as it was given.
  by_cases system : Mentions systemApiTag line
  · simp [mentions_trim_iff, system, collect, kept]
  · simp [mentions_trim_iff, system, collect, kept]

theorem annotate_eq_collect (doc : Doc) (text : String) :
    doc.annotate text = doc.collect [] [text] := by
  simp [annotate, collect, kept]

theorem foldl_addLine_trim (doc : Doc) (input : List String) :
    (input.map Text.trim).foldl addLine doc = doc.collect input [] := by
  induction input generalizing doc with
  | nil => exact doc.collect_nil.symm
  | cons line rest ih =>
    rw [List.map_cons, List.foldl_cons, ih, addLine_trim, collect_collect]
    rfl

theorem comment_eq_collect (doc : Doc) (text : String) :
    doc.comment text = doc.collect (Text.lines text) [] :=
  doc.foldl_addLine_trim (Text.lines text)

/-! ### Runs of steps -/

def Step.comment? : Step → Option String
  | .comment text => some text
  | .annotate _ => none

def Step.annotation? : Step → Option String
  | .comment _ => none
  | .annotate text => some text

/-- The lines of all comment texts of some steps, as they stand there. -/
def inputLines (steps : List Step) : List String :=
  (steps.filterMap Step.comment?).flatMap Text.lines

theorem foldl_apply_eq_collect (doc : Doc) (steps : List Step) :
    steps.foldl apply doc =
      doc.collect (inputLines steps) (steps.filterMap Step.annotation?) := by
  induction steps generalizing doc with
  | nil => exact doc.collect_nil.symm
  | cons step rest ih =>
    -- A step collects what is its own, and the rest of the run collects after it.
    rw [List.foldl_cons, ih]
    cases step with
    | comment text =>
      rw [apply, comment_eq_collect, collect_collect]
      rfl
    | annotate text =>
      rw [apply, annotate_eq_collect, collect_collect]
      rfl

theorem ofSteps_eq_collect (steps : List Step) :
    ofSteps steps = collect {} (inputLines steps) (steps.filterMap Step.annotation?) :=
  foldl_apply_eq_collect {} steps

theorem lines_ofSteps (steps : List Step) : (ofSteps steps).lines = kept (inputLines steps) := by
  rw [ofSteps_eq_collect, collect]
  exact List.nil_append _

theorem annotations_ofSteps (steps : List Step) :
    (ofSteps steps).annotations = steps.filterMap Step.annotation? := by
  rw [ofSteps_eq_collect, collect]
  exact List.nil_append _

theorem mem_annotations_ofSteps (steps : List Step) (text : String) :
    text ∈ (ofSteps steps).annotations ↔ Step.annotate text ∈ steps := by
  rw [annotations_ofSteps, List.mem_filterMap]
  constructor
  · rintro ⟨step, member, added⟩
    cases step with
    | comment other => cases added
    | annotate other =>
      obtain rfl := Option.some.inj added
      exact member
  · intro member
    exact ⟨_, member, rfl⟩

theorem foldl_comment_eq_ofSteps (texts : List String) :
    texts.foldl comment {} = ofSteps (texts.map .comment) := by
  rw [ofSteps, List.foldl_map]
  rfl

/-- What is kept is trimmed and has no tag of system API. -/
theorem mem_kept {input : List String} {line : String} (member : line ∈ kept input) :
    Text.trim line = line ∧ ¬ Mentions systemApiTag line := by
  obtain ⟨whole, mem, rfl⟩ := List.mem_map.mp member
  have without := (List.mem_filter.mp mem).2
  rw [decide_eq_true_iff] at without
  exact ⟨Text.trim_trim whole, fun found => without ((mentions_trim_iff whole).mp found)⟩

end JavaSource.Doc
