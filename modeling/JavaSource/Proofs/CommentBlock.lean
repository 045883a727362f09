import JavaSource.Proofs.BannerComment
import JavaSource.Proofs.OneLine

/-!
# The comment block and its marks

Comment text is written into the block of its member as it stands, one line after another. A reader
of Java skips exactly the block if no line that is kept has a closing mark in it, which is also when
the block would pass the check of a banner. The first mark on a line ends the comment for the
reader, and what is left of the block is read as code.
-/
namespace JavaSource

open Options (commentStart commentEnd)

/-! ### Words on both sides of a character -/

namespace Text

/-- A word stands before or after a character that it does not have. -/
theorem infix_append_cons_iff {word before after : List Char} {c : Char} (foreign : c ∉ word) :
    word <:+: before ++ c :: after ↔ word <:+: before ∨ word <:+: after := by
  constructor
  · rintro ⟨left, right, same⟩
    rw [List.append_assoc, List.append_eq_append_iff] at same
    rcases same with ⟨part, rfl, same⟩ | ⟨part, rfl, same⟩
    · rcases List.append_eq_append_iff.mp same with ⟨more, rfl, -⟩ | ⟨more, rfl, later⟩
      · exact .inl ⟨left, more, List.append_assoc left word more⟩
      -- The word begins before the character, so it has to end there.
      · cases more with
        | nil => exact .inl ⟨left, [], by simp⟩
        | cons d others =>
          obtain ⟨rfl, -⟩ := List.cons.inj later
          exact absurd (by simp) foreign
    · cases part with
      | nil =>
        cases word with
        | nil => exact .inl (List.nil_infix)
        | cons d others =>
          obtain ⟨rfl, -⟩ := List.cons.inj same
          exact absurd List.mem_cons_self foreign
      | cons d others =>
        obtain ⟨-, rfl⟩ := List.cons.inj same
        exact .inr ⟨others, right, List.append_assoc others word right⟩
  · rintro (first | second)
    · exact first.trans (List.prefix_append before _).isInfix
    · exact second.trans ((List.suffix_cons c after).trans (List.suffix_append before _)).isInfix

/-- A word without line feeds stands on one of the lines, or after them. -/
theorem infix_terminated_iff {word : List Char} (whole : '\n' ∉ word) (lines : List String)
    (rest : List Char) :
    word <:+: (terminated lines).toList ++ rest ↔
      (∃ line ∈ lines, word <:+: line.toList) ∨ word <:+: rest := by
  induction lines with
  | nil => simp
  | cons line more ih =>
    have split : (terminated (line :: more)).toList ++ rest =
        line.toList ++ '\n' :: ((terminated more).toList ++ rest) := by simp
    rw [split, infix_append_cons_iff whole, ih]
    simp only [List.mem_cons, exists_eq_or_imp, or_assoc]

end Text

namespace Doc

/-- The comment block at a margin, from its opening mark to its closing one. -/
def block (margin : String) (lines : List String) : String :=
  "/**\n" ++ Text.terminated (lines.map fun line => margin ++ commentLine line) ++ margin ++ " */"

/-- What follows the opening mark of a block: its lines, and some text after them. -/
def opened (margin : String) (lines : List String) (last : String) : List Char :=
  ['*'] ++ '\n' :: ((Text.terminated (lines.map fun line => margin ++ commentLine line)).toList ++
    last.toList)

/-- What follows the first mark on a line of the block. -/
def afterMark (margin right : String) (after : List String) : String :=
  right ++ "\n" ++ Text.terminated (after.map fun line => margin ++ commentLine line) ++ margin ++
    " */"

theorem toList_block (margin : String) (lines : List String) :
    (block margin lines).toList =
      commentStart ++ opened margin lines (margin ++ " ") ++ commentEnd := by
  simp [block, opened, commentStart, commentEnd]

/-- Documentation with comment lines is the margin, the block, and what there would be without
them. -/
theorem render_eq_block (doc : Doc) (margin : String) (some_line : doc.lines ≠ []) :
    doc.render margin =
      margin ++ block margin doc.lines ++ "\n" ++ { doc with lines := [] }.render margin := by
  rw [render, render, join_pieces, join_pieces]
  simp [contents, commentLines, block, some_line, Function.comp_def, String.append_assoc]

/-- No mark reaches across a space. -/
theorem infix_append_space_iff {before after : List Char} :
    commentEnd <:+: before ++ ' ' :: after ↔ commentEnd <:+: before ∨ commentEnd <:+: after :=
  Text.infix_append_cons_iff (by decide)

theorem not_mark_infix_star : ¬ commentEnd <:+: ['*'] := by decide

section Marks

variable {margin : String} (blank : ∀ c ∈ margin.toList, Text.isBlank c = true)

include blank

theorem not_mark_infix_margin : ¬ commentEnd <:+: margin.toList := by
  intro inside
  have star : '*' ∈ margin.toList := inside.subset (by decide)
  exact absurd (blank '*' star) (by decide)

/-- The margin and the star in front of a line make no mark with it. -/
theorem mark_infix_starred (text : String) :
    commentEnd <:+: (margin ++ (" * " ++ text)).toList ↔ Mentions commentEnd text := by
  have split : (margin ++ (" * " ++ text)).toList =
      margin.toList ++ ' ' :: (['*'] ++ ' ' :: text.toList) := by simp
  rw [split, infix_append_space_iff, infix_append_space_iff]
  simp only [not_mark_infix_margin blank, not_mark_infix_star, false_or, Mentions]

theorem mark_infix_commentLine (line : String) :
    commentEnd <:+: (margin ++ commentLine line).toList ↔ Mentions commentEnd line := by
  by_cases empty : line = ""
  · have no_line : ¬ Mentions commentEnd "" := by decide
    have split : (margin ++ " *").toList = margin.toList ++ ' ' :: ['*'] := by simp
    rw [empty, show commentLine "" = " *" from rfl, split, infix_append_space_iff]
    simp only [not_mark_infix_margin blank, not_mark_infix_star, no_line, or_self]
  · rw [show commentLine line = " * " ++ line by simp [commentLine, empty]]
    exact mark_infix_starred blank line

/-- The closing marks between the opening mark and some text after the lines are those of the lines
and of that text. -/
theorem mark_infix_opened_iff (lines : List String) (last : String) :
    commentEnd <:+: opened margin lines last ↔
      (∃ line ∈ lines, Mentions commentEnd line) ∨ commentEnd <:+: last.toList := by
  have feed : '\n' ∉ commentEnd := by decide
  rw [opened, Text.infix_append_cons_iff feed, Text.infix_terminated_iff feed]
  simp only [not_mark_infix_star, false_or, List.mem_map, exists_exists_and_eq_and,
    mark_infix_commentLine blank]

/-- The closing marks inside a block are those of its lines. -/
theorem mark_infix_block_iff (lines : List String) :
    commentEnd <:+: opened margin lines (margin ++ " ") ↔
      ∃ line ∈ lines, Mentions commentEnd line := by
  have nothing : ¬ commentEnd <:+: [] := by decide
  have split : (margin ++ " ").toList = margin.toList ++ ' ' :: [] := by simp
  rw [mark_infix_opened_iff blank, split, infix_append_space_iff]
  simp only [not_mark_infix_margin blank, nothing, or_false]

/-- The block is skipped as a whole exactly if no line has a mark. -/
theorem skipComment?_block_iff (lines : List String) (rest : List Char) :
    Lexical.skipComment? ((block margin lines).toList ++ rest) = some rest ↔
      ∀ line ∈ lines, ¬ Mentions commentEnd line := by
  have marks := mark_infix_block_iff blank lines
  rw [Lexical.skipComment?_eq_some_iff, toList_block]
  constructor
  · rintro ⟨body, none_inside, shape⟩ line member mark
    -- The reader stops at the last mark, so it has passed over all that is inside.
    have same : opened margin lines (margin ++ " ") = body := by
      simpa only [List.append_assoc, List.append_cancel_left_eq, List.append_cancel_right_eq]
        using shape
    exact none_inside (same ▸ marks.mpr ⟨line, member, mark⟩)
  · intro none_marked
    refine ⟨_, fun inside => ?_, rfl⟩
    obtain ⟨line, member, mark⟩ := marks.mp inside
    exact none_marked line member mark

/-- The reader stops at the first mark of the first line that has one. -/
theorem skipComment?_block_of_mark
    {before : List String} (none_before : ∀ line ∈ before, ¬ Mentions commentEnd line)
    {left : String} (none_left : ¬ Mentions commentEnd left) (right : String)
    (after : List String) (rest : List Char) :
    Lexical.skipComment?
        ((block margin (before ++ (left ++ "*/" ++ right) :: after)).toList ++ rest) =
      some ((afterMark margin right after).toList ++ rest) := by
  have marked : commentLine (left ++ "*/" ++ right) = " * " ++ (left ++ "*/" ++ right) := by
    simp [commentLine]
  -- Up to the mark there is a block of the lines before, with the front of this one after them.
  have none_inside : ¬ commentEnd <:+: opened margin before (margin ++ (" * " ++ left)) := by
    rw [mark_infix_opened_iff blank, mark_infix_starred blank]
    rintro (⟨line, member, mark⟩ | mark)
    · exact none_before line member mark
    · exact none_left mark
  refine (Lexical.skipComment?_eq_some_iff _ _).mpr ⟨_, none_inside, ?_⟩
  simp [block, opened, afterMark, marked, commentStart, commentEnd]

end Marks

/-- A mark has no blanks, so the lines that are kept have those of the comment texts. -/
theorem forall_lines_unmarked_iff (steps : List Step) :
    (∀ line ∈ (ofSteps steps).lines, ¬ Mentions commentEnd line) ↔
      ∀ line ∈ inputLines steps, Mentions commentEnd line → Mentions systemApiTag line := by
  have visible : commentEnd.all (!Text.isBlank ·) = true := by decide
  have trimmed : ∀ line, Mentions commentEnd (Text.trim line) ↔ Mentions commentEnd line :=
    Text.infix_trim_iff (by simpa using visible)
  rw [lines_ofSteps, kept]
  simp only [List.forall_mem_map, List.mem_filter, trimmed, decide_eq_true_iff]
  constructor
  · intro unmarked line member mark
    by_contra no_tag
    exact unmarked line ⟨member, no_tag⟩ mark
  · rintro tagged line ⟨member, no_tag⟩ mark
    exact no_tag (tagged line member mark)

/-- Whatever steps left some lines of comment, and whatever blanks stand in the margin: a reader of
block comments that starts at the opening mark of the block stops exactly at its end if no line has
a closing mark in it, and else at the first mark of the first line that has one, so that the rest of
this line is read as code. The block is then not one that a banner may be. A line of comment text
with a mark in it is only left out if it has the tag of system API too. -/
theorem comment_skipped_iff (steps : List Step) (some_line : (ofSteps steps).lines ≠ [])
    {margin : String} (blank : ∀ c ∈ margin.toList, Text.isBlank c = true) :
    (ofSteps steps).render margin =
      margin ++ block margin (ofSteps steps).lines ++ "\n" ++
        { ofSteps steps with lines := [] }.render margin ∧
    (∀ rest,
      Lexical.skipComment? ((block margin (ofSteps steps).lines).toList ++ rest) = some rest ↔
        ∀ line ∈ (ofSteps steps).lines, ¬ Mentions commentEnd line) ∧
    (∀ before left right after rest,
      (ofSteps steps).lines = before ++ (left ++ "*/" ++ right) :: after →
      (∀ line ∈ before, ¬ Mentions commentEnd line) → ¬ Mentions commentEnd left →
      Lexical.skipComment? ((block margin (ofSteps steps).lines).toList ++ rest) =
        some ((afterMark margin right after).toList ++ rest)) ∧
    (Options.isBlockComment (block margin (ofSteps steps).lines) = true ↔
      ∀ line ∈ (ofSteps steps).lines, ¬ Mentions commentEnd line) ∧
    ((∀ line ∈ (ofSteps steps).lines, ¬ Mentions commentEnd line) ↔
      ∀ line ∈ inputLines steps, Mentions commentEnd line → Mentions systemApiTag line) := by
  refine ⟨render_eq_block _ margin some_line, skipComment?_block_iff blank _, ?stops, ?banner,
    forall_lines_unmarked_iff steps⟩
  case stops =>
    intro before left right after rest lines none_before none_left
    rw [lines]
    exact skipComment?_block_of_mark blank none_before none_left right after rest
  case banner =>
    rw [Options.isBlockComment_iff_skipComment?, ← skipComment?_block_iff blank _ [],
      List.append_nil]

/-- A comment text with the closing mark on its second line. -/
def markedSteps : List Step := [.comment "start\n a */ b\nend", .annotate "IdRes"]

theorem comment_skipped_iff_markedSteps :
    (ofSteps markedSteps).lines ≠ [] ∧ (∀ c ∈ "\t".toList, Text.isBlank c = true) ∧
      (ofSteps markedSteps).render "\t" =
        "\t" ++ block "\t" ["start", "a */ b", "end"] ++ "\n" ++ "\t@IdRes\n" ∧
      (∀ rest, Lexical.skipComment? ((block "\t" ["start", "a */ b", "end"]).toList ++ rest) =
        some (" b\n\t * end\n\t */".toList ++ rest)) ∧
      Options.isBlockComment (block "\t" ["start", "a */ b", "end"]) = false := by
  have lines : (ofSteps markedSteps).lines = ["start", "a */ b", "end"] := by decide
  have some_line : (ofSteps markedSteps).lines ≠ [] := by decide
  have blank : ∀ c ∈ "\t".toList, Text.isBlank c = true := by simp [Text.isBlank]
  have unmarked : ∀ line ∈ ["start"], ¬ Mentions commentEnd line := by decide
  have marked : ¬ ∀ line ∈ ["start", "a */ b", "end"], ¬ Mentions commentEnd line := by decide
  obtain ⟨written, -, stops, banner, -⟩ := comment_skipped_iff markedSteps some_line blank
  rw [lines] at written stops banner
  refine ⟨some_line, blank, written.trans (by rfl), fun rest => ?_, ?_⟩
  · exact stops ["start"] "a " " b" ["end"] rest rfl unmarked (by decide)
  · rw [← Bool.not_eq_true, banner]
    exact marked

/-- A comment of one line, with the closing mark on it. -/
def endedSteps : List Step := [.comment "a */ b"]

/-- The text of a comment can end it: there is a block at the end of which the reader does not
stop. -/
theorem not_forall_comment_skipped :
    ¬ ∀ (steps : List Step) (margin : String), (ofSteps steps).lines ≠ [] →
      (∀ c ∈ margin.toList, Text.isBlank c = true) →
      Lexical.skipComment? (block margin (ofSteps steps).lines).toList = some [] := by
  intro skipped
  -- The reader stops inside the line.
  have stopped : Lexical.skipComment? (block "" (ofSteps endedSteps).lines).toList =
      some " b\n */".toList := by rfl
  rw [skipped endedSteps "" (by decide) (by simp)] at stopped
  cases stopped

end Doc

end JavaSource
