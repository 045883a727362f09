import JavaSource.File
import JavaSource.Proofs.SkippedComment
import JavaSource.Proofs.Validation
import Mathlib

/-!
# The banner is one comment

A banner is valid exactly if a reader of block comments skips all of it and nothing less, so the
reader that starts at the top of a file stops where the banner ends. The check of a banner is stated
on byte offsets too: it cuts the text between the two marks out by them, and no offset that it cuts
at is out of range or inside a character.
-/
namespace JavaSource

/-! ### Cutting at byte offsets -/

namespace Text

/-- The text before a byte offset and the text from there on; none if the offset is past the end or
inside a character. -/
def splitAtByte? (offset : Nat) : List Char → Option (List Char × List Char)
  | [] => if offset = 0 then some ([], []) else none
  | c :: rest =>
    if offset = 0 then some ([], c :: rest)
    else if offset < c.utf8Size then none
    else
      (splitAtByte? (offset - c.utf8Size) rest).map fun (before, after) => (c :: before, after)

/-- The text between two byte offsets, if they are in order, in range and between characters. -/
def slice? (start stop : Nat) (text : List Char) : Option (List Char) :=
  if start ≤ stop then
    (splitAtByte? start text).bind fun cut => (splitAtByte? (stop - start) cut.2).map Prod.fst
  else none

theorem splitAtByte?_zero (text : List Char) : splitAtByte? 0 text = some ([], text) := by
  cases text <;> rfl

/-- The offset at which two texts are put together is one at which they can be cut apart. -/
theorem splitAtByte?_append (first second : List Char) :
    splitAtByte? (byteSize first) (first ++ second) = some (first, second) := by
  induction first with
  | nil => exact splitAtByte?_zero second
  | cons c rest ih =>
    have size := c.utf8Size_pos
    rw [byteSize, List.cons_append, splitAtByte?, if_neg (by omega), if_neg (by omega),
      Nat.add_sub_cancel_left, ih]
    rfl

theorem slice?_append (before middle after : List Char) :
    slice? (byteSize before) (byteSize before + byteSize middle) (before ++ middle ++ after) =
      some middle := by
  rw [slice?, if_pos (Nat.le_add_right _ _), Nat.add_sub_cancel_left, List.append_assoc,
    splitAtByte?_append, Option.bind_some, splitAtByte?_append]
  rfl

end Text

/-! ### The banner -/

namespace Options

/-- The check of a banner by byte offsets: the text between the marks is only cut out once the marks
are known to be there, and an offset that cannot be cut at leaves no answer. -/
def isBlockCommentAt? (text : String) : Option Bool :=
  if 4 ≤ text.utf8ByteSize && commentStart.isPrefixOf text.toList &&
      commentEnd.isSuffixOf text.toList then
    (Text.slice? 2 (text.utf8ByteSize - 2) text.toList).map (!Text.occurs commentEnd ·)
  else some false

/-- The marks have two bytes each, so what is between them is cut out whole. -/
theorem slice?_marks {text : String} {middle : List Char}
    (marks : text.toList = ['/', '*'] ++ middle ++ ['*', '/']) :
    Text.slice? 2 (text.utf8ByteSize - 2) text.toList = some middle := by
  have start : Text.byteSize ['/', '*'] = 2 := by decide
  have finish : Text.byteSize ['*', '/'] = 2 := by decide
  have size : text.utf8ByteSize - 2 = Text.byteSize ['/', '*'] + Text.byteSize middle := by
    rw [← Text.byteSize_toList, marks, Text.byteSize_append, Text.byteSize_append, finish]
    omega
  rw [size, marks, ← start]
  exact Text.slice?_append ['/', '*'] middle ['*', '/']

theorem isBlockCommentAt?_eq (text : String) :
    isBlockCommentAt? text = some (isBlockComment text) := by
  unfold isBlockCommentAt? isBlockComment
  split
  next marked =>
    obtain ⟨middle, shape⟩ : ∃ middle, text.toList = ['/', '*'] ++ middle ++ ['*', '/'] := by
      simp only [Bool.and_eq_true, decide_eq_true_eq, List.isPrefixOf_iff_prefix,
        List.isSuffixOf_iff_suffix] at marked
      exact exists_middle marked.1.1 marked.1.2 marked.2
    rw [slice?_marks shape, marked, Bool.true_and, Option.map_some, shape, inside_marks]
  next unmarked =>
    rw [Bool.not_eq_true] at unmarked
    rw [unmarked, Bool.false_and]

/-- Two marks and no closing mark between them is what a reader of comments skips. -/
theorem isBlockComment_iff_skipComment? (text : String) :
    isBlockComment text = true ↔ Lexical.skipComment? text.toList = some [] := by
  rw [isBlockComment_iff, Lexical.skipComment?_eq_some_iff]
  constructor
  · rintro ⟨size, starts, ends, single⟩
    obtain ⟨middle, shape⟩ := exists_middle size starts ends
    refine ⟨middle, fun inside => ?_, by rw [shape, List.append_nil]; rfl⟩
    -- A mark between the two would be one that the check rules out.
    obtain ⟨before, after, rfl⟩ := inside
    refine single before after ?_
    rw [shape]
    simp [commentEnd]
  · rintro ⟨body, none_inside, shape⟩
    rw [List.append_nil] at shape
    refine ⟨?_, ⟨body ++ commentEnd, ?_⟩, ⟨commentStart ++ body, shape.symm⟩,
      fun before after split => none_inside ⟨before, after, ?_⟩⟩
    · rw [← Text.byteSize_toList, shape, Text.byteSize_append, Text.byteSize_append,
        show Text.byteSize commentStart = 2 by decide, show Text.byteSize commentEnd = 2 by decide]
      omega
    · rw [shape, List.append_assoc]
      rfl
    · -- The closing mark at the end is the same in both splits of the text.
      rw [split] at shape
      have ended : before ++ commentEnd ++ after ++ ['*', '/'] = body ++ ['*', '/'] := by
        simpa [commentStart, commentEnd] using shape
      exact List.append_cancel_right ended

/-- The banner of options that are read has passed the check. -/
theorem isBlockComment_of_read {source : Source} {options : Options} {banner : String}
    (accepted : read source = .ok options) (given : options.banner = some banner) :
    isBlockComment banner = true := by
  obtain ⟨table, draft, -, -, valid⟩ := (read_eq_ok_iff source options).mp accepted
  obtain ⟨-, -, -, checked⟩ := (validate_eq_ok_iff draft options).mp valid
  rw [given] at checked
  rcases (check_eq_ok_iff _ _ _).mp checked with ⟨-, nothing⟩ | ⟨located, text, -, ok, same⟩
  · cases nothing
  · obtain rfl := Option.some.inj same
    obtain ⟨single, rfl⟩ := (validBanner_eq_ok_iff _ _).mp ok
    exact (isBlockComment_iff _).mpr single

/-- The check of a banner always has an answer: no offset it cuts at is out of range or inside a
character. It accepts a text exactly if a reader of block comments that starts at the beginning of
the text skips all of it. So in a file with options that were read, the reader that starts at the
top stops where the banner ends, before the package statement. -/
theorem banner_skipped :
    (∀ text, isBlockCommentAt? text = some (isBlockComment text)) ∧
    (∀ text, isBlockComment text = true ↔ Lexical.skipComment? text.toList = some []) ∧
    (∀ source options banner, read source = .ok options → options.banner = some banner →
      ∀ file : File, file.options = options → ∃ rest,
        file.render = banner ++ ("\n\npackage " ++ rest) ∧
        Lexical.skipComment? file.render.toList = some ("\n\npackage " ++ rest).toList) := by
  refine ⟨isBlockCommentAt?_eq, isBlockComment_iff_skipComment?,
    fun source options banner accepted given file used => ?_⟩
  have skipped :=
    (isBlockComment_iff_skipComment? banner).mp (isBlockComment_of_read accepted given)
  have own : file.banner = banner := by rw [File.banner, used, given, Option.getD_some]
  refine ⟨_, by rw [file.render_eq, own], ?_⟩
  rw [file.render_eq, own, String.toList_append]
  exact Lexical.skipComment?_append skipped _

/-- A banner in which a slash follows the opening mark and a star goes before the closing one, with
a character of several bytes between. -/
def starredBanner : Source where
  text := "banner = \" /*/ \u00e9 **/\\n\""
  filename := "javagen.toml"

def starredOptions : Options where
  banner := some "/*/ \u00e9 **/"

def starredFile : File where
  package := "org.example"
  root := { head := { name := "R" } }
  options := starredOptions

theorem banner_skipped_starredFile :
    read starredBanner = .ok starredOptions ∧ starredOptions.banner = some "/*/ \u00e9 **/" ∧
      starredFile.options = starredOptions ∧
      ∃ rest, starredFile.render = "/*/ \u00e9 **/" ++ ("\n\npackage " ++ rest) ∧
        Lexical.skipComment? starredFile.render.toList =
          some ("\n\npackage " ++ rest).toList := by
  have accepted : read starredBanner = .ok starredOptions := by cbv
  exact ⟨accepted, rfl, rfl, banner_skipped.2.2 _ _ _ accepted rfl starredFile rfl⟩

end Options

end JavaSource
