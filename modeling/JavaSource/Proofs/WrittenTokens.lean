import JavaSource.Proofs.Digits
import JavaSource.Toml.Statement
import Mathlib.Data.List.TakeDrop

/-!
# Tokens written and read back

Lexemes can be written one right after another, without blanks, as long as a mark follows each word
and each string. What is written is scanned into the same lexemes, each where it was written. A
string may hold any text: a character that may not stand between quotes as it is, is written by its
code point.
-/
namespace JavaSource.Toml

namespace Quoted

/-- A character between double quotes. -/
def write (c : Char) : List Char :=
  if isAllowed c = true ∧ c ≠ '"' ∧ c ≠ '\\' then [c]
  else '\\' :: 'U' :: Text.fixedDigits 16 8 c.toNat

theorem charOf?_toNat (c : Char) : charOf? c.toNat = some c := by
  have valid : c.toNat.isValidChar := c.valid
  rw [charOf?, if_pos valid, Char.ofNat_toNat]

/-- Digits are read up to the last one that the escape announces. -/
theorem escapedLine_code {digits : List Char} {value whole : Nat} (some_digit : digits ≠ [])
    (reads : digits.foldlM (Text.readDigit 16) value = some whole) (rest : List Char) :
    escapedLine (.code digits.length value) (digits ++ rest) =
      (charOf? whole).bind fun c => (escapedLine .plain rest).after c := by
  induction digits generalizing value with
  | nil => exact absurd rfl some_digit
  | cons c more ih =>
    obtain ⟨next, first, later⟩ := Option.bind_eq_some_iff.mp reads
    unfold Text.readDigit at first
    split at first
    next part known =>
      split at first
      · obtain rfl := Option.some.inj first
        cases more with
        | nil =>
          obtain rfl := Option.some.inj later
          simp [escapedLine, known]
        | cons d others =>
          have several : ¬ (c :: d :: others).length ≤ 1 := by simp
          rw [List.cons_append, escapedLine, known]
          simp only [if_neg several]
          exact ih (List.cons_ne_nil _ _) later
      · cases first
    next => cases first

theorem escapedLine_write (c : Char) (rest : List Char) :
    escapedLine .plain (write c ++ rest) = (escapedLine .plain rest).after c := by
  unfold write
  split
  next plain =>
    obtain ⟨allowed, no_quote, no_slash⟩ := plain
    rw [List.singleton_append, escapedLine, if_pos allowed]
    · exact no_quote
    · exact no_slash
  next =>
    -- Eight digits are enough for every code point.
    have bound : c.toNat < 16 ^ 8 := by
      have valid : c.toNat.isValidChar := c.valid
      unfold Nat.isValidChar at valid
      omega
    have reads :=
      Text.foldlM_readDigit_fixedDigits (show 0 < 16 by decide) (by decide) 8 0 c.toNat
    rw [Nat.mod_eq_of_lt bound, Nat.zero_mul, Nat.zero_add] at reads
    have length := Text.length_fixedDigits 16 8 c.toNat
    have some_digit : Text.fixedDigits 16 8 c.toNat ≠ [] :=
      List.ne_nil_of_length_eq_add_one length
    have code := escapedLine_code some_digit reads rest
    rw [length, charOf?_toNat] at code
    exact code

/-- Whatever a text is, it is read back up to the quote that closes it. -/
theorem escapedLine_flatMap_write (text rest : List Char) :
    escapedLine .plain (text.flatMap write ++ '"' :: rest) = some (text, rest) := by
  induction text with
  | nil => rfl
  | cons c more ih =>
    rw [List.flatMap_cons, List.append_assoc, escapedLine_write, ih]
    rfl

theorem write_ne_nil (c : Char) : write c ≠ [] := by
  unfold write
  split <;> exact List.cons_ne_nil _ _

/-- No written character begins with a quote. -/
theorem head?_write_ne (c : Char) : (write c).head? ≠ some '"' := by
  unfold write
  split
  next plain => simpa using plain.2.1
  next => simp

end Quoted

/-! ### Lexemes -/

namespace Lexeme

open Text (byteSize byteSize_append)

/-- A lexeme as it is written: strings on a single line, between double quotes. -/
def write : Lexeme → List Char
  | .newline => ['\n']
  | .dot => ['.']
  | .equals => ['=']
  | .comma => [',']
  | .openBracket => ['[']
  | .closeBracket => [']']
  | .openBrace => ['\x7b']
  | .closeBrace => ['\x7d']
  | .text content _ => '"' :: (content.toList.flatMap Quoted.write ++ ['"'])
  | .atom chars => chars

def IsMark (lexeme : Lexeme) : Prop := ∃ c, mark? c = some lexeme

theorem write_of_mark? {c : Char} {lexeme : Lexeme} (marked : mark? c = some lexeme) :
    write lexeme = [c] := by
  unfold mark? at marked
  split at marked <;> cases marked <;> rfl

/-- A word of the characters of bare keys. -/
def IsBareWord (chars : List Char) : Prop := chars ≠ [] ∧ ∀ c ∈ chars, Key.isBare c = true

theorem isBareWord_iff (chars : List Char) :
    IsBareWord chars ↔ (!chars.isEmpty && chars.all Key.isBare) = true := by
  simp [IsBareWord]

instance (chars : List Char) : Decidable (IsBareWord chars) :=
  decidable_of_iff _ (isBareWord_iff chars).symm

/-- A lexeme can be told from those after it: it is a mark, or a word or string with a mark after
it. -/
inductive Apart : Lexeme → List Lexeme → Prop where
  | mark {lexeme : Lexeme} {rest : List Lexeme} (marked : lexeme.IsMark) : Apart lexeme rest
  | word {chars : List Char} {next : Lexeme} {rest : List Lexeme} (bare : IsBareWord chars)
      (marked : next.IsMark) : Apart (.atom chars) (next :: rest)
  | string {content : String} {next : Lexeme} {rest : List Lexeme} (marked : next.IsMark) :
      Apart (.text content false) (next :: rest)

/-- Each lexeme can be told from those after it. -/
inductive Separate : List Lexeme → Prop where
  | nil : Separate []
  | cons {lexeme : Lexeme} {rest : List Lexeme} (apart : Apart lexeme rest)
      (later : Separate rest) : Separate (lexeme :: rest)

theorem Separate.append {first second : List Lexeme} (front : Separate first)
    (back : Separate second) : Separate (first ++ second) := by
  induction front with
  | nil => exact back
  | cons apart _ ih =>
    refine .cons ?_ ih
    cases apart with
    | mark marked => exact .mark marked
    | word bare marked => exact .word bare marked
    | string marked => exact .string marked

theorem isBare_eq_false_of_mark? {c : Char} {lexeme : Lexeme} (marked : mark? c = some lexeme) :
    Key.isBare c = false := by
  unfold mark? at marked
  split at marked <;> cases marked <;> rfl

theorem mark?_eq_none_of_isBare {c : Char} (bare : Key.isBare c = true) : mark? c = none := by
  cases marked : mark? c with
  | none => rfl
  | some lexeme =>
    rw [isBare_eq_false_of_mark? marked] at bare
    cases bare

theorem isAtomChar_of_isBare {c : Char} (bare : Key.isBare c = true) : isAtomChar c = true := by
  have others : ∀ d ∈ [' ', '\t', '#', '\r'], c ≠ d := by
    rintro d member rfl
    simp only [List.mem_cons, List.not_mem_nil, or_false] at member
    rcases member with rfl | rfl | rfl | rfl <;> exact absurd bare (by decide)
  simp only [List.mem_cons, List.not_mem_nil, or_false, forall_eq_or_imp, forall_eq] at others
  simp [isAtomChar, isBlank, mark?_eq_none_of_isBare bare, others]

theorem isAtomChar_of_mark? {c : Char} {lexeme : Lexeme} (marked : mark? c = some lexeme) :
    isAtomChar c = false := by
  simp [isAtomChar, marked]

/-! ### One lexeme -/

theorem scan?_mark {c : Char} {lexeme : Lexeme} (marked : mark? c = some lexeme)
    (rest : List Char) : scan? (c :: rest) = some ⟨lexeme, 1, rest⟩ := by
  unfold mark? at marked
  split at marked <;> cases marked <;> rfl

theorem byteSize_mark {c : Char} {lexeme : Lexeme} (marked : mark? c = some lexeme) :
    byteSize [c] = 1 := by
  unfold mark? at marked
  split at marked <;> cases marked <;> rfl

/-- A word goes up to the mark after it. -/
theorem scan?_word {chars : List Char} (bare : IsBareWord chars) {c : Char} {next : Lexeme}
    (marked : mark? c = some next) (rest : List Char) :
    scan? (chars ++ c :: rest) = some ⟨.atom chars, byteSize chars, c :: rest⟩ := by
  have inside : ∀ d ∈ chars, isAtomChar d = true := fun d member =>
    isAtomChar_of_isBare (bare.2 d member)
  have outside : ¬ isAtomChar c = true := by simp [isAtomChar_of_mark? marked]
  have span : (chars ++ c :: rest).span isAtomChar = (chars, c :: rest) := by
    rw [List.span_eq_takeWhile_dropWhile, List.takeWhile_append_of_pos inside,
      List.dropWhile_append_of_pos inside, List.takeWhile_cons_of_neg outside,
      List.dropWhile_cons_of_neg outside, List.append_nil]
  obtain ⟨d, more, rfl⟩ := List.exists_cons_of_ne_nil bare.1
  have first := bare.2 d List.mem_cons_self
  -- A word does not begin like anything else that is scanned.
  have other {e : Char} {text : List Char} (begins : d :: (more ++ c :: rest) = e :: text)
      (not_bare : Key.isBare e = false) : False := by
    rw [← (List.cons.inj begins).1, first] at not_bare
    cases not_bare
  rw [List.cons_append] at span ⊢
  rw [scan?.eq_def]
  split
  next begins => exact (other begins (by decide)).elim
  next begins => exact (other begins (by decide)).elim
  next begins => exact (other begins (by decide)).elim
  next begins => exact (other begins (by decide)).elim
  next begins => exact (other begins (by decide)).elim
  next begins => exact (other begins (by decide)).elim
  next same =>
    obtain ⟨rfl, rfl⟩ := List.cons.inj same
    simp only [mark?_eq_none_of_isBare first, span]
  next nothing => cases nothing

theorem scan?_string (content : String) {c : Char} {next : Lexeme} (marked : mark? c = some next)
    (rest : List Char) :
    scan? (write (.text content false) ++ c :: rest) =
      some ⟨.text content false, byteSize (write (.text content false)), c :: rest⟩ := by
  have size : byteSize (write (.text content false) ++ c :: rest) - byteSize (c :: rest) =
      byteSize (write (.text content false)) := by
    rw [byteSize_append, Nat.add_sub_cancel]
  have reading := Quoted.escapedLine_flatMap_write content.toList (c :: rest)
  have shape : write (.text content false) ++ c :: rest =
      '"' :: (content.toList.flatMap Quoted.write ++ '"' :: c :: rest) := by
    simp [write]
  rw [shape] at size ⊢
  rw [scan?.eq_def]
  split
  next more begins =>
    -- Only an empty string begins with two quotes, and the mark after it is no third one.
    obtain ⟨-, begins⟩ := List.cons.inj begins
    cases text : content.toList with
    | nil =>
      rw [text] at begins
      obtain ⟨rfl, -⟩ := List.cons.inj (List.cons.inj begins).2
      cases marked
    | cons d others =>
      rw [text, List.flatMap_cons, List.append_assoc] at begins
      have quote := congrArg List.head? begins
      rw [List.head?_append_of_ne_nil _ (Quoted.write_ne_nil d)] at quote
      exact absurd quote (Quoted.head?_write_ne d)
  next more _ begins =>
    obtain ⟨-, rfl⟩ := List.cons.inj begins
    rw [reading, ofReading, Option.map_some]
    simp only [size, String.ofList_toList]
  next begins => cases begins
  next begins => cases begins
  next begins => cases begins
  next begins => cases begins
  next same =>
    obtain ⟨rfl, -⟩ := List.cons.inj same
    contradiction
  next nothing => cases nothing

/-- What is written can be scanned whatever comes after it, as long as it can be told from that. -/
theorem scan?_write {lexeme : Lexeme} {rest : List Lexeme} (apart : Apart lexeme rest) :
    scan? (write lexeme ++ rest.flatMap write) =
      some ⟨lexeme, byteSize (write lexeme), rest.flatMap write⟩ := by
  cases apart with
  | mark marked =>
    obtain ⟨c, marked⟩ := marked
    rw [write_of_mark? marked, List.singleton_append, scan?_mark marked, byteSize_mark marked]
  | @word chars next more bare marked =>
    obtain ⟨c, marked⟩ := marked
    rw [List.flatMap_cons, write_of_mark? marked]
    exact scan?_word bare marked _
  | @string content next more marked =>
    obtain ⟨c, marked⟩ := marked
    rw [List.flatMap_cons, write_of_mark? marked]
    exact scan?_string content marked _

/-- What is written begins neither with a blank nor with a comment. -/
theorem exists_write_eq_cons {lexeme : Lexeme} {rest : List Lexeme} (apart : Apart lexeme rest) :
    ∃ c text, write lexeme = c :: text ∧ isBlank c = false ∧ c ≠ '#' := by
  cases apart with
  | mark marked =>
    obtain ⟨c, marked⟩ := marked
    refine ⟨c, [], write_of_mark? marked, ?_⟩
    unfold mark? at marked
    split at marked <;> cases marked <;> exact ⟨rfl, by decide⟩
  | word bare marked =>
    obtain ⟨c, text, rfl⟩ := List.exists_cons_of_ne_nil bare.1
    have plain := isAtomChar_of_isBare (bare.2 c List.mem_cons_self)
    simp only [isAtomChar, Bool.and_eq_true, Bool.not_eq_true', bne_iff_ne] at plain
    exact ⟨c, text, rfl, plain.1.1.2, plain.1.2⟩
  | string marked => exact ⟨_, _, rfl, rfl, by decide⟩

end Lexeme

/-! ### A run of lexemes -/

namespace Token

open Lexeme (Separate write)
open Text (byteSize byteSize_append)

/-- The tokens of lexemes that are written from an offset on, one right after another. -/
def place : Nat → List Lexeme → List Token
  | _, [] => []
  | offset, lexeme :: rest =>
    ⟨lexeme, ⟨offset, byteSize (write lexeme)⟩, []⟩ :: place (offset + byteSize (write lexeme)) rest

theorem place_append (offset : Nat) (first second : List Lexeme) :
    place offset (first ++ second) =
      place offset first ++ place (offset + byteSize (first.flatMap write)) second := by
  induction first generalizing offset with
  | nil => rfl
  | cons lexeme rest ih =>
    rw [List.cons_append, place, ih, List.flatMap_cons, byteSize_append, ← Nat.add_assoc]
    rfl

theorem length_place (offset : Nat) (lexemes : List Lexeme) :
    (place offset lexemes).length = lexemes.length := by
  induction lexemes generalizing offset with
  | nil => rfl
  | cons lexeme rest ih => simp [place, ih]

/-- A text that begins with a lexeme is scanned from there on. -/
theorem scanFrom?_succ {c : Char} {text : List Char} (visible : Lexeme.isBlank c = false)
    (no_comment : c ≠ '#') {scanned : Lexeme.Scanned}
    (found : Lexeme.scan? (c :: text) = some scanned) (steps offset : Nat) :
    scanFrom? (steps + 1) offset (c :: text) =
      (scanFrom? steps (offset + scanned.size) scanned.rest).map
        (⟨scanned.lexeme, ⟨offset, scanned.size⟩, []⟩ :: ·) := by
  have span : (c :: text).span Lexeme.isBlank = ([], c :: text) := by
    rw [List.span_eq_takeWhile_dropWhile, List.takeWhile_cons_of_neg (by simp [visible]),
      List.dropWhile_cons_of_neg (by simp [visible])]
  rw [scanFrom?, span]
  dsimp only
  split
  next nothing => cases nothing
  next begins => exact absurd (List.cons.inj begins).1 no_comment
  next =>
    simp only [found, List.length_nil, Nat.add_zero, Option.bind_eq_bind, Option.bind_some]
    cases scanFrom? steps (offset + scanned.size) scanned.rest <;> rfl

/-- Lexemes that can be told apart are scanned as they were written. -/
theorem scanFrom?_flatMap_write {lexemes : List Lexeme} (separate : Separate lexemes)
    {steps : Nat} (enough : lexemes.length ≤ steps) (offset : Nat) :
    scanFrom? steps offset (lexemes.flatMap write) = some (place offset lexemes) := by
  induction separate generalizing steps offset with
  | nil => cases steps <;> rfl
  | @cons lexeme rest apart _ ih =>
    obtain ⟨left, rfl⟩ := Nat.exists_eq_add_of_le' (Nat.lt_of_lt_of_le (Nat.succ_pos _) enough)
    -- One lexeme is scanned, and the others where it ends.
    have found := Lexeme.scan?_write apart
    obtain ⟨c, text, begins, visible, no_comment⟩ := Lexeme.exists_write_eq_cons apart
    rw [begins, List.cons_append] at found
    rw [List.flatMap_cons, begins, List.cons_append, scanFrom?_succ visible no_comment found]
    have later := ih (Nat.le_of_succ_le_succ enough) (offset + byteSize (write lexeme))
    rw [← begins, later]
    rfl

/-- Each lexeme takes a character or more. -/
theorem length_le_length_flatMap_write {lexemes : List Lexeme} (separate : Separate lexemes) :
    lexemes.length ≤ (lexemes.flatMap write).length := by
  induction separate with
  | nil => exact Nat.le_refl 0
  | @cons lexeme rest apart _ ih =>
    obtain ⟨c, text, begins, -, -⟩ := Lexeme.exists_write_eq_cons apart
    rw [List.flatMap_cons, begins, List.length_append, List.length_cons, List.length_cons]
    omega

end Token

end JavaSource.Toml
