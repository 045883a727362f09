import JavaSource.Proofs.OneLine
import JavaSource.Text.Bytes

/-!
# What documentation collects

Steps of any kind and in any order collect three things: the lines of all comment texts, the
annotations, and for each tag whether it was met. A line with the tag of system API is not kept, so
the other tag on it is not met. Annotations count apart from lines, so of a run of steps only its
comments and its annotations matter, each in their order. What was collected is empty exactly if it
has no text.
-/
namespace JavaSource

namespace Doc

/-- A comment all of whose lines mention system API leaves nothing but the mark, whatever else is on
these lines. -/
theorem comment_of_mentions (doc : Doc) {text : String} (some_line : Text.lines text ≠ [])
    (mention : ∀ line ∈ Text.lines text, Mentions systemApiTag line) :
    doc.comment text = { doc with systemApi := true } := by
  have none_kept : kept (Text.lines text) = [] := by
    rw [kept, List.map_eq_nil_iff, List.filter_eq_nil_iff]
    simpa using mention
  have found : (Text.lines text).any (Mentions systemApiTag ·) = true := by
    obtain ⟨line, member⟩ := List.exists_mem_of_ne_nil _ some_line
    exact List.any_eq_true.mpr ⟨line, member, by simpa using mention line member⟩
  -- No line is kept, so none is left to mention the other tag.
  rw [comment_eq_collect, collect, none_kept, found]
  simp

/-! ### Nothing to write -/

theorem contents_eq_nil_iff (doc : Doc) : doc.contents = [] ↔ doc.isEmpty = true := by
  simp only [contents, commentLines, isEmpty, List.append_eq_nil_iff, List.map_eq_nil_iff,
    Bool.and_eq_true, List.isEmpty_iff, Bool.not_eq_true']
  refine and_congr_left' (and_congr (and_congr ?_ ?_) ?_)
  · split <;> simp_all
  · split <;> simp_all
  · split <;> simp_all

theorem bytes_render_eq_nil_iff (doc : Doc) (margin : String) :
    Text.bytes (doc.render margin) = [] ↔ doc.isEmpty = true := by
  rw [← Text.bytes_empty, Text.bytes_inj, render, join_pieces, ← contents_eq_nil_iff]
  -- Each line has a line end, so a text without bytes has no lines.
  cases doc.contents with
  | nil => simp
  | cons line rest => simp

/-- Whatever steps are taken, in whatever order: the lines are those of the comment texts that do
not mention system API, trimmed; system API is marked if some line of a comment text mentions it,
and deprecation if a line that is kept does; the annotations are those that were added. So a comment
all of whose lines mention system API only marks that, whatever else is on them, and runs with the
same comments and the same annotations leave the same documentation, however the two are mixed.
Each line is trimmed, is one line and does not mention system API, and the documentation is empty
exactly if nothing is written of it, at any margin. -/
theorem ofSteps_collects (steps : List Step) :
    (ofSteps steps).lines =
      ((inputLines steps).filter (¬ Mentions systemApiTag ·)).map Text.trim ∧
    ((ofSteps steps).systemApi = true ↔ ∃ line ∈ inputLines steps, Mentions systemApiTag line) ∧
    ((ofSteps steps).deprecated = true ↔
      ∃ line ∈ (ofSteps steps).lines, Mentions deprecatedTag line) ∧
    (ofSteps steps).annotations = steps.filterMap Step.annotation? ∧
    (∀ text, Text.lines text ≠ [] → (∀ line ∈ Text.lines text, Mentions systemApiTag line) →
      ofSteps (steps ++ [.comment text]) = { ofSteps steps with systemApi := true }) ∧
    (∀ other : List Step, steps.filterMap Step.comment? = other.filterMap Step.comment? →
      steps.filterMap Step.annotation? = other.filterMap Step.annotation? →
      ofSteps steps = ofSteps other) ∧
    (∀ line ∈ (ofSteps steps).lines,
      Text.trim line = line ∧ OneLine line ∧ ¬ Mentions systemApiTag line) ∧
    (∀ margin, (ofSteps steps).isEmpty = true ↔
      Text.bytes ((ofSteps steps).render margin) = []) := by
  refine ⟨?_, ?_, ?_, ?_, fun text some_line mention => ?_, fun other comments annotations => ?_,
    fun line member => ?_, fun margin => ?_⟩
  · exact lines_ofSteps steps
  · simp [ofSteps_eq_collect, collect]
  · simp [ofSteps_eq_collect, collect]
  · exact annotations_ofSteps steps
  · rw [ofSteps, List.foldl_append, ← ofSteps]
    exact (ofSteps steps).comment_of_mentions some_line mention
  · rw [ofSteps_eq_collect, ofSteps_eq_collect, inputLines, inputLines, comments, annotations]
  · have stored := member
    rw [lines_ofSteps] at stored
    obtain ⟨trimmed, without⟩ := mem_kept stored
    exact ⟨trimmed, oneLine_of_mem_lines_ofSteps member, without⟩
  · exact ((ofSteps steps).bytes_render_eq_nil_iff margin).symm

/-- Two comments, the second with both tags on one of its lines. -/
def twoComments : List Step := [.comment " one \r\n\n", .comment "two\n@SystemApi @deprecated"]

/-- An annotation between the two comments or after them makes no difference, and a comment with
both tags on its one line only marks system API. -/
theorem ofSteps_twoComments :
    Text.lines "@SystemApi @deprecated" ≠ [] ∧
      (∀ line ∈ Text.lines "@SystemApi @deprecated", Mentions systemApiTag line) ∧
      ofSteps (twoComments ++ [.comment "@SystemApi @deprecated"]) =
        { ofSteps twoComments with systemApi := true } ∧
      ofSteps [.comment " one \r\n\n", .annotate "IdRes",
          .comment "two\n@SystemApi @deprecated"] = ofSteps (twoComments ++ [.annotate "IdRes"]) ∧
      ((ofSteps twoComments).lines = ["one", "", "two"] ∧ Text.trim "two" = "two" ∧
        OneLine "two" ∧ ¬ Mentions systemApiTag "two") := by
  have some_line : Text.lines "@SystemApi @deprecated" ≠ [] := by decide
  have mention : ∀ line ∈ Text.lines "@SystemApi @deprecated", Mentions systemApiTag line := by
    decide
  obtain ⟨lines, -, -, -, tagged, -, kept, -⟩ := ofSteps_collects twoComments
  refine ⟨some_line, mention, tagged _ some_line mention, ?_, lines.trans (by decide), ?_⟩
  · exact (ofSteps_collects _).2.2.2.2.2.1 _ (by decide) (by decide)
  · exact kept "two" (by decide)

end Doc

end JavaSource
