import JavaSource.Doc
import JavaSource.Proofs.Trimming

/-!
# Comment text in pieces

Of a comment text only its lines count, and of each line only what trimming leaves. Without the
blanks at their ends these lines can be read off the text one character at a time, from its last
character to its first. Each character then does the same to all that follows it, so what follows
can be replaced by any text with the same lines: a text can be cut at every line end, and it does
not matter whether a line ends with a line feed alone or with a carriage return before it, which is
one more blank at the end of its line.
-/
namespace JavaSource

namespace Text

/-- The lines of a text, each without the blanks that end it. -/
def clippedLines (text : List Char) : List (List Char) := (splitLines text).map trimEnd

/-- The lines of a text with a character before it, given the lines of the text. -/
def prepend (c : Char) (lines : List (List Char)) : List (List Char) :=
  if c = '\n' then [] :: lines else trimEnd (c :: lines.headD []) :: lines.tail

theorem prepend_feed (lines : List (List Char)) : prepend '\n' lines = [] :: lines := rfl

theorem prepend_of_ne {c : Char} (other : c ≠ '\n') (lines : List (List Char)) :
    prepend c lines = trimEnd (c :: lines.headD []) :: lines.tail := if_neg other

theorem clippedLines_cons (c : Char) (rest : List Char) :
    clippedLines (c :: rest) = prepend c (clippedLines rest) := by
  rw [clippedLines, splitLines.eq_def]
  split
  next nothing => cases nothing
  next more same =>
    obtain ⟨rfl, rfl⟩ := List.cons.inj same
    rfl
  next more same =>
    -- The return before a line feed would be a blank that ends the line.
    obtain ⟨rfl, rfl⟩ := List.cons.inj same
    rfl
  next d more no_feed no_return same =>
    obtain ⟨rfl, rfl⟩ := List.cons.inj same
    rw [prepend_of_ne no_feed, clippedLines]
    cases splitLines rest with
    | nil => rfl
    | cons line lines => simp [trimEnd_cons_trimEnd]

theorem clippedLines_append (first second : List Char) :
    clippedLines (first ++ second) = first.foldr prepend (clippedLines second) := by
  induction first with
  | nil => rfl
  | cons c rest ih => rw [List.cons_append, clippedLines_cons, ih, List.foldr_cons]

theorem clippedLines_return_feed (rest : List Char) :
    clippedLines ('\r' :: '\n' :: rest) = clippedLines ('\n' :: rest) := rfl

/-- A character changes the first line after it and no other. -/
theorem prepend_append {lines : List (List Char)} (some_line : lines ≠ []) (c : Char)
    (more : List (List Char)) : prepend c (lines ++ more) = prepend c lines ++ more := by
  obtain ⟨line, rest, rfl⟩ := List.exists_cons_of_ne_nil some_line
  unfold prepend
  split <;> rfl

theorem prepend_ne_nil (c : Char) (lines : List (List Char)) : prepend c lines ≠ [] := by
  unfold prepend
  split <;> exact List.cons_ne_nil _ _

theorem foldr_prepend_ne_nil (text : List Char) {lines : List (List Char)}
    (some_line : lines ≠ []) : text.foldr prepend lines ≠ [] := by
  cases text with
  | nil => exact some_line
  | cons c rest => exact prepend_ne_nil c _

theorem foldr_prepend_append (text : List Char) {lines : List (List Char)}
    (some_line : lines ≠ []) (more : List (List Char)) :
    text.foldr prepend (lines ++ more) = text.foldr prepend lines ++ more := by
  induction text with
  | nil => rfl
  | cons c rest ih =>
    rw [List.foldr_cons, List.foldr_cons, ih, prepend_append (foldr_prepend_ne_nil rest some_line)]

/-- After a line feed the lines start afresh. -/
theorem clippedLines_append_feed (first second : List Char) :
    clippedLines (first ++ '\n' :: second) =
      clippedLines (first ++ ['\n']) ++ clippedLines second := by
  -- The first text only reaches the empty line that the feed puts before the lines of the second.
  rw [clippedLines_append, clippedLines_append, clippedLines_cons, clippedLines_cons,
    prepend_feed, prepend_feed, ← foldr_prepend_append first (List.cons_ne_nil _ _)]
  rfl

/-- The line feed at the end of a text closes its last line and opens none. -/
theorem clippedLines_final_feed {text : List Char} (some_char : text ≠ [])
    (open_line : text.getLast? ≠ some '\n') :
    clippedLines (text ++ ['\n']) = clippedLines text := by
  obtain ⟨front, c, rfl⟩ := List.eq_nil_or_concat' text |>.resolve_left some_char
  -- Only the last character can tell the two texts apart, and it has one line in both.
  have other : c ≠ '\n' := by simpa using open_line
  have last : clippedLines [c, '\n'] = clippedLines [c] := by
    rw [clippedLines_cons, clippedLines_cons, clippedLines_cons, prepend_of_ne other,
      prepend_of_ne other]
    rfl
  rw [List.append_assoc, clippedLines_append, clippedLines_append front [c]]
  exact congrArg (front.foldr prepend) last

/-! ### Line ends -/

/-- Whether the text ends with a line end. -/
def EndsLine (text : String) : Prop := text.toList.getLast? = some '\n'

instance (text : String) : Decidable (EndsLine text) :=
  inferInstanceAs (Decidable (text.toList.getLast? = some '\n'))

def lineFeeds : List Char → List Char
  | [] => []
  | '\r' :: '\n' :: rest => '\n' :: lineFeeds rest
  | c :: rest => c :: lineFeeds rest

/-- The text with a line feed alone in place of each carriage return and line feed. -/
def withLineFeeds (text : String) : String := String.ofList (lineFeeds text.toList)

theorem clippedLines_lineFeeds (text : List Char) :
    clippedLines (lineFeeds text) = clippedLines text := by
  fun_induction lineFeeds text with
  | case1 => rfl
  | case2 rest ih => rw [clippedLines_return_feed, clippedLines_cons, ih, clippedLines_cons]
  | case3 c rest _ ih => rw [clippedLines_cons, ih, clippedLines_cons]

theorem clippedLines_append_lineEnd {text : String} (some_char : text ≠ "")
    (open_line : ¬ EndsLine text) {lineEnd : String} (ends : lineEnd ∈ ["\n", "\r\n"]) :
    clippedLines (text ++ lineEnd).toList = clippedLines text.toList := by
  have chars : text.toList ≠ [] := fun none => some_char (String.toList_eq_nil_iff.mp none)
  rw [String.toList_append]
  have feed := clippedLines_final_feed chars open_line
  simp only [List.mem_cons, List.not_mem_nil, or_false] at ends
  rcases ends with rfl | rfl
  · exact feed
  · -- What is put before a line end does not see the carriage return in it.
    rw [clippedLines_append] at feed ⊢
    exact feed

end Text

/-! ### The documentation -/

namespace Doc

theorem comment_eq (doc : Doc) (text : String) :
    doc.comment text =
      ((Text.clippedLines text.toList).map fun line =>
        String.ofList (Text.trimStart line)).foldl addLine doc := by
  simp [comment, Text.lines, Text.clippedLines, Text.trim, Text.trimChars,
    Text.trimEnd_trimStart, Function.comp_def]

theorem comment_congr (doc : Doc) {first second : String}
    (same : Text.clippedLines first.toList = Text.clippedLines second.toList) :
    doc.comment first = doc.comment second := by
  rw [comment_eq, comment_eq, same]

theorem comment_comment (doc : Doc) {first second whole : String}
    (lines : Text.clippedLines whole.toList =
      Text.clippedLines first.toList ++ Text.clippedLines second.toList) :
    (doc.comment first).comment second = doc.comment whole := by
  rw [comment_eq, comment_eq, comment_eq doc whole, lines, List.map_append, List.foldl_append]

/-- Comment text may come in pieces: two texts one after the other are one text, with a line feed
between them unless the first is empty or ends its last line itself. Which line ends are used makes
no difference, and neither does one at the end of a text that is not empty and has none there. -/
theorem comment_in_pieces (doc : Doc) (text : String) :
    (∀ more, text = "" ∨ Text.EndsLine text →
      (doc.comment text).comment more = doc.comment (text ++ more)) ∧
    (∀ more, text ≠ "" → ¬ Text.EndsLine text →
      (doc.comment text).comment more = doc.comment (text ++ "\n" ++ more)) ∧
    doc.comment (Text.withLineFeeds text) = doc.comment text ∧
    (text ≠ "" → ¬ Text.EndsLine text → ∀ lineEnd ∈ ["\n", "\r\n"],
      doc.comment (text ++ lineEnd) = doc.comment text) := by
  refine ⟨fun more closed => ?_, fun more some_char open_line => ?_, ?_,
    fun some_char open_line lineEnd ends => ?_⟩
  · rcases closed with rfl | ended
    · -- The empty text has no lines, and so no effect.
      rw [String.empty_append]
      rfl
    · apply comment_comment
      obtain ⟨front, split⟩ := List.getLast?_eq_some_iff.mp ended
      rw [String.toList_append, split, List.append_assoc]
      exact Text.clippedLines_append_feed front more.toList
  · apply comment_comment
    -- The first text has the same lines with the line feed that goes between the two.
    have closed : Text.clippedLines (text ++ "\n").toList = Text.clippedLines text.toList :=
      Text.clippedLines_append_lineEnd some_char open_line (by simp)
    rw [← closed]
    simp only [String.toList_append, List.append_assoc]
    exact Text.clippedLines_append_feed text.toList more.toList
  · apply comment_congr
    rw [Text.withLineFeeds, String.toList_ofList, Text.clippedLines_lineFeeds]
  · exact doc.comment_congr (Text.clippedLines_append_lineEnd some_char open_line ends)

/-- A carriage return at the end of a piece is no line end, whatever piece comes next. -/
theorem comment_in_pieces_return :
    ("one\r\n" = "" ∨ Text.EndsLine "one\r\n") ∧ "one\r" ≠ "" ∧ ¬ Text.EndsLine "one\r" ∧
      (comment {} "one\r\n").comment "two" = comment {} ("one\r\n" ++ "two") ∧
      (comment {} "one\r").comment "\ntwo" = comment {} ("one\r" ++ "\n" ++ "\ntwo") ∧
      comment {} ("one\r" ++ "\r\n") = comment {} "one\r" := by
  have some_char : "one\r" ≠ "" := by decide
  have open_line : ¬ Text.EndsLine "one\r" := by decide
  have closed : "one\r\n" = "" ∨ Text.EndsLine "one\r\n" := .inr (by decide)
  obtain ⟨-, between, -, ending⟩ := comment_in_pieces {} "one\r"
  exact ⟨closed, some_char, open_line, (comment_in_pieces {} "one\r\n").1 "two" closed,
    between "\ntwo" some_char open_line, ending some_char open_line "\r\n" (by decide)⟩

end Doc

end JavaSource
