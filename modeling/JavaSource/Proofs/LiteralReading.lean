import JavaSource.Proofs.Lexical
import JavaSource.Proofs.Literals
import Mathlib.Data.List.Induction

/-!
# Literals read back by the lexical rules

Before a semicolon, a comma or a line end every literal is read as its own value, and nothing of
what follows is read. For strings this rests on the parity of backslashes: after each escaped
character of a string an even number of them has been written, so that a backslash begins a Unicode
escape exactly where a control character was.
-/
namespace JavaSource.Lexical

/-! ### Strings -/

/-- A character is written as a backslash and a mark, as a Unicode escape, or as it is. -/
theorem escape_cases (c : Char) :
    (∃ mark ∈ ['"', '\\', 'n', 'r', 't'], Literal.escape c = ['\\', mark] ∧
      escapeCode? mark.toNat = some c.toNat) ∨
    (Literal.escape c = '\\' :: 'u' :: Text.fixedDigits 16 4 c.toNat ∧
      Literal.isControl c = true ∧ c ≠ '\n' ∧ c ≠ '\r') ∨
    (Literal.escape c = [c] ∧ Literal.isControl c = false ∧ c ≠ '"' ∧ c ≠ '\\') := by
  unfold Literal.escape
  split
  · exact .inl ⟨'"', by decide, rfl, by decide⟩
  · exact .inl ⟨'\\', by decide, rfl, by decide⟩
  · exact .inl ⟨'n', by decide, rfl, by decide⟩
  · exact .inl ⟨'r', by decide, rfl, by decide⟩
  · exact .inl ⟨'t', by decide, rfl, by decide⟩
  next no_quote no_slash no_feed no_return _ =>
    split
    next control => exact .inr (.inl ⟨rfl, control, no_feed, no_return⟩)
    next plain => exact .inr (.inr ⟨rfl, eq_false_of_ne_true plain, no_quote, no_slash⟩)

/-- The characters of Unicode escapes. -/
def unicodeMarks : List Char := '\\' :: 'u' :: (List.range 16).map Text.digit

theorem mem_unicodeMarks {value : Nat} {c : Char}
    (member : c ∈ '\\' :: 'u' :: Text.fixedDigits 16 4 value) : c ∈ unicodeMarks := by
  rw [List.mem_cons, List.mem_cons] at member
  rcases member with rfl | rfl | digit
  · decide
  · decide
  · exact Text.forall_mem_fixedDigits (by decide) (by decide) 4 value c digit

/-- An escaped character is two input characters, the first of them a backslash, or it is one, which
ends neither the string nor the line. -/
theorem inputs_escape (c : Char) (rest : List Char) :
    (∃ mark, inputs true (Literal.escape c ++ rest) =
        ⟨'\\'.toNat, mark :: rest⟩ :: ⟨mark.toNat, rest⟩ :: inputs true rest ∧
      escapeCode? mark.toNat = some c.toNat) ∨
    (inputs true (Literal.escape c ++ rest) = ⟨c.toNat, rest⟩ :: inputs true rest ∧
      c ≠ '"' ∧ c ≠ '\\' ∧ c ≠ '\n' ∧ c ≠ '\r') := by
  rcases escape_cases c with
    ⟨mark, known, written, stands⟩ | ⟨written, control, no_feed, no_return⟩ |
      ⟨written, plain, no_quote, no_slash⟩ <;> rw [written]
  · have no_unicode : ∀ mark ∈ ['"', '\\', 'n', 'r', 't'], mark ≠ 'u' := by simp
    have next : inputs false (mark :: rest) = ⟨mark.toNat, rest⟩ :: inputs true rest := by
      -- After a second backslash their number is even again.
      by_cases slash : mark = '\\'
      · rw [slash, inputs_slash (.inl rfl), Bool.not_false]
      · exact inputs_cons slash false rest
    -- The mark is no `u`, so the backslash before it stands for itself.
    refine .inl ⟨mark, ?_, stands⟩
    rw [List.cons_append, List.cons_append, List.nil_append,
      inputs_slash (.inr (by simpa using no_unicode mark known)), Bool.not_true, next]
  · have other {d : Char} (no_control : Literal.isControl d = false) : c ≠ d := by
      rintro rfl
      rw [no_control] at control
      cases control
    refine .inr ⟨?_, other (by decide), other (by decide), no_feed, no_return⟩
    -- No control character has more than four digits.
    have small : c.toNat < 16 ^ 4 := by
      simp only [Literal.isControl, Bool.or_eq_true, Bool.and_eq_true, decide_eq_true_eq]
        at control
      omega
    apply inputs_unicode (Text.length_fixedDigits 16 4 _)
      (Text.ofDigits?_fixedDigits (by decide) (by decide) (by decide) small)
    -- The first digit is not taken for another `u`.
    intro marked
    have no_digit : ∀ d ∈ Text.fixedDigits 16 4 c.toNat, d ≠ 'u' :=
      Text.forall_mem_fixedDigits (by decide) (by decide) 4 c.toNat
    exact no_digit 'u' (List.mem_of_mem_head? marked) rfl
  · have other {d : Char} (control : Literal.isControl d = true) : c ≠ d := by
      rintro rfl
      rw [plain] at control
      cases control
    exact .inr ⟨inputs_cons no_slash true rest, no_quote, no_slash, other (by decide),
      other (by decide)⟩

/-- The string goes on after an escaped character, which adds the units of the character to it. -/
theorem scan_escape (c : Char) (rest : List Char) :
    scan (inputs true (Literal.escape c ++ rest)) =
      (scan (inputs true rest)).map fun (value, after) => (units c.toNat ++ value, after) := by
  have code {d : Char} (other : c ≠ d) : c.toNat ≠ d.toNat :=
    fun same => other (Char.toNat_inj.mp same)
  rcases inputs_escape c rest with
    ⟨mark, two, stands⟩ | ⟨one, no_quote, no_slash, no_feed, no_return⟩
  · rw [two, scan_slash stands]
  · rw [one, scan_plain (code no_quote) (code no_slash) ⟨code no_feed, code no_return⟩]

theorem scan_string (value rest : List Char) :
    scan (inputs true (value.flatMap Literal.escape ++ '"' :: rest)) =
      some (utf16 value, rest) := by
  induction value with
  | nil => rw [List.flatMap_nil, List.nil_append, inputs_cons (by decide), scan_quote]; rfl
  | cons c more ih =>
    rw [List.flatMap_cons, List.append_assoc, scan_escape, ih]
    rfl

/-- A string is no text block: only in the empty string the quote that closes it stands right after
the one that opens it, and no third quote follows. -/
theorem readString?_string (value more : List Char) {mark : Char} (no_quote : mark ≠ '"')
    (no_slash : mark ≠ '\\') :
    readString? (value.flatMap Literal.escape ++ '"' :: mark :: more) =
      some (.string (utf16 value), mark :: more) := by
  have no_block : ((inputs true (value.flatMap Literal.escape ++ '"' :: mark :: more)).take 2).map
      Input.code ≠ ['"'.toNat, '"'.toNat] := by
    intro same
    cases value with
    | nil =>
      rw [List.flatMap_nil, List.nil_append, inputs_cons (by decide), inputs_cons no_slash] at same
      exact no_quote (Char.toNat_inj.mp (List.cons.inj (List.cons.inj same).2).1)
    | cons c rest =>
      rw [List.flatMap_cons, List.append_assoc] at same
      rcases inputs_escape c (rest.flatMap Literal.escape ++ '"' :: mark :: more) with
        ⟨slashed, two, -⟩ | ⟨one, other, -⟩
      · have slash : '\\'.toNat ≠ '"'.toNat := by decide
        rw [two] at same
        exact slash (List.cons.inj same).1
      · rw [one] at same
        exact other (Char.toNat_inj.mp (List.cons.inj same).1)
  rw [readString?, if_neg no_block, scan_string]
  rfl

/-! ### Numerals and keywords -/

/-- A word of letters and digits goes up to a mark that ends words. -/
theorem span_word {word : List Char} (more : List Char) {mark : Char}
    (plain : ∀ c ∈ word, c.isAlphanum = true) (ends : endsWord mark = true) :
    (word ++ mark :: more).takeWhile (!endsWord ·) = word ∧
      (word ++ mark :: more).dropWhile (!endsWord ·) = mark :: more := by
  have marks : ∀ d ∈ [' ', '\t', '\x0c', '\n', '\r', ';', ','], ¬ d.isAlphanum = true := by simp
  have inside : ∀ c ∈ word, (!endsWord c) = true := by
    intro c member
    rw [endsWord, Bool.not_eq_true', decide_eq_false_iff_not]
    exact fun mark => marks c mark (plain c member)
  rw [List.takeWhile_append_of_pos inside, List.dropWhile_append_of_pos inside]
  simp [ends]

theorem read_word (word : List Char) {more : List Char} {mark : Char} (nonempty : word ≠ [])
    (plain : ∀ c ∈ word, c.isAlphanum = true) (ends : endsWord mark = true) :
    read (word ++ mark :: more) = (ofWord? word).map fun constant => (constant, mark :: more) := by
  obtain ⟨taken, dropped⟩ := span_word more plain ends
  have other {d : Char} {rest : List Char} (begins : word ++ mark :: more = d :: rest)
      (no_letter : d.isAlphanum = false) : False := by
    cases word with
    | nil => exact nonempty rfl
    | cons first later =>
      rw [← (List.cons.inj begins).1, plain first List.mem_cons_self] at no_letter
      cases no_letter
  unfold read
  split
  next begins => exact (other begins (by decide)).elim
  next begins => exact (other begins (by decide)).elim
  next => rw [taken, dropped]

theorem read_minus {word more : List Char} {mark : Char}
    (plain : ∀ c ∈ word, c.isAlphanum = true) (ends : endsWord mark = true) :
    read ('-' :: word ++ mark :: more) =
      (intOf? true word).map fun value => (.int value, mark :: more) := by
  obtain ⟨taken, dropped⟩ := span_word more plain ends
  rw [List.cons_append, read, taken, dropped]

theorem ofWord?_of_head {word : List Char} (no_true : word.head? ≠ some 't')
    (no_false : word.head? ≠ some 'f') : ofWord? word = (intOf? false word).map .int := by
  rw [ofWord?, if_neg, if_neg]
  · rintro rfl
    exact no_false rfl
  · rintro rfl
    exact no_true rfl

/-- All 32 bits of an identifier are read, also those above the largest positive integer. -/
theorem intOf?_hexadecimal (bits : UInt32) :
    intOf? false ('0' :: 'x' :: Text.fixedDigits 16 8 bits.toNat) = some bits.toInt32 := by
  have small : bits.toNat < 16 ^ 8 := bits.toNat_lt
  have value : Text.ofDigits? 16 (Text.fixedDigits 16 8 bits.toNat) = some bits.toNat :=
    Text.ofDigits?_fixedDigits (by decide) (by decide) (by decide) small
  have same : Int32.ofNat bits.toNat = bits.toInt32 :=
    congrArg UInt32.toInt32 UInt32.ofNat_toNat
  simp only [intOf?, value, Option.bind_some, below, if_pos (show bits.toNat < 2 ^ 32 from small)]
  simp [same]

/-- A decimal numeral has no zero in front that would make it octal. -/
theorem intOf?_digits {negated : Bool} {value : Nat}
    (small : value < if negated then 2 ^ 31 + 1 else 2 ^ 31) :
    intOf? negated (Text.digits 10 value) =
      some (if negated then -Int32.ofNat value else Int32.ofNat value) := by
  have read : Text.ofDigits? 10 (Text.digits 10 value) = some value :=
    Text.ofDigits?_digits (by decide) (by decide) value
  have decimal : intOf? negated (Text.digits 10 value) =
      ((Text.ofDigits? 10 (Text.digits 10 value)).bind
        (below (if negated then 2 ^ 31 + 1 else 2 ^ 31))).map
        fun value => if negated then -Int32.ofNat value else Int32.ofNat value := by
    -- Zero is the only number whose numeral begins with a zero, and it has no second digit.
    by_cases zero : value = 0
    · subst zero
      have single : Text.digits 10 0 = ['0'] := by rw [Text.digits, if_pos (by decide)]; rfl
      rw [single]
      rfl
    · have no_zero : (Text.digits 10 value).head? ≠ some '0' :=
        Text.head?_digits (by decide) (by decide) (Nat.pos_of_ne_zero zero)
      unfold intOf?
      split
      next same => exact absurd (congrArg List.head? same) no_zero
      next same => exact absurd (congrArg List.head? same) no_zero
      next => rfl
  rw [decimal, read, Option.bind_some, below, if_pos small, Option.map_some]

/-! ### Where a string ends -/

/-- The number of backslashes at the end of a text. -/
def slashesAtEnd (text : List Char) : Nat := (text.reverse.takeWhile (· == '\\')).length

theorem slashesAtEnd_slash (text : List Char) :
    slashesAtEnd (text ++ ['\\']) = slashesAtEnd text + 1 := by
  simp [slashesAtEnd]

theorem slashesAtEnd_other {c : Char} (other : c ≠ '\\') (text : List Char) :
    slashesAtEnd (text ++ [c]) = 0 := by
  simp [slashesAtEnd, other]

/-- An escaped character ends in two backslashes or in none. -/
theorem even_slashesAtEnd_escape (c : Char) {text : List Char} (even : Even (slashesAtEnd text)) :
    Even (slashesAtEnd (text ++ Literal.escape c)) := by
  have ended (front : List Char) {last : Char} (other : last ≠ '\\') :
      Even (slashesAtEnd (text ++ (front ++ [last]))) := by
    rw [← List.append_assoc, slashesAtEnd_other other]
    exact Even.zero
  rcases escape_cases c with ⟨mark, -, written, -⟩ | ⟨written, -⟩ | ⟨written, -, -, no_slash⟩ <;>
    rw [written]
  · by_cases slash : mark = '\\'
    · have two : text ++ ['\\', mark] = text ++ ['\\'] ++ ['\\'] := by simp [slash]
      rw [two, slashesAtEnd_slash, slashesAtEnd_slash]
      exact Nat.even_add_one.mpr (Nat.even_add_one.not.mpr (not_not.mpr even))
    · exact ended ['\\'] slash
  · -- The last of the four digits ends the escape.
    have other : ∀ part < 16, Text.digit part ≠ '\\' := by decide
    exact ended ('\\' :: 'u' :: Text.fixedDigits 16 3 (c.toNat / 16))
      (other _ (Nat.mod_lt _ (by decide)))
  · exact ended [] no_slash

/-- The only quote in an escaped character is the one after the backslash of an escaped quote. -/
theorem eq_slash_of_escape {c : Char} {front rest : List Char}
    (cut : Literal.escape c = front ++ '"' :: rest) : front = ['\\'] := by
  have inside : '"' ∈ front ++ '"' :: rest := by simp
  rw [← cut] at inside
  rcases escape_cases c with ⟨mark, -, written, -⟩ | ⟨written, -⟩ | ⟨written, -, no_quote, -⟩
  · rw [written] at cut
    cases front with
    | nil => cases cut
    | cons slash more =>
      obtain ⟨rfl, later⟩ := List.cons.inj cut
      -- Nothing is written after the mark, so the quote is the mark.
      cases more with
      | nil => rfl
      | cons quote more => simp at later
  · rw [written] at inside
    exact absurd (mem_unicodeMarks inside) (by decide)
  · rw [written] at inside
    exact absurd (List.mem_singleton.mp inside).symm no_quote

theorem even_slashesAtEnd (value : List Char) :
    Even (slashesAtEnd (value.flatMap Literal.escape)) := by
  induction value using List.reverseRecOn with
  | nil => exact Even.zero
  | append_singleton more c ih =>
    rw [List.flatMap_append, List.flatMap_singleton]
    exact even_slashesAtEnd_escape c ih

/-- Every quote inside a string stands after an odd number of backslashes. -/
theorem odd_slashesAtEnd (value : List Char) {before after : List Char}
    (quote : value.flatMap Literal.escape = before ++ '"' :: after) :
    ¬ Even (slashesAtEnd before) := by
  induction value using List.reverseRecOn generalizing after with
  | nil => simp at quote
  | append_singleton more c ih =>
    rw [List.flatMap_append, List.flatMap_singleton] at quote
    rcases List.append_eq_append_iff.mp quote with ⟨front, rfl, last⟩ | ⟨back, inside, rest⟩
    -- The quote is in the last character, which is then a quote after a backslash.
    · rw [eq_slash_of_escape last, slashesAtEnd_slash, Nat.even_add_one, not_not]
      exact even_slashesAtEnd more
    · -- The quote is in an earlier character: the last one does not begin with a quote.
      cases back with
      | nil =>
        obtain ⟨mark, later, begins, other⟩ := Literal.escape_ne_quote c
        rw [List.nil_append, begins] at rest
        exact absurd (List.cons.inj rest).1.symm other
      | cons mark between =>
        obtain ⟨rfl, -⟩ := List.cons.inj rest
        exact ih inside

/-- No control character is left in a string, so no line ends in it. -/
theorem isControl_of_mem_escape {c d : Char} (member : d ∈ Literal.escape c) :
    Literal.isControl d = false := by
  rcases escape_cases c with ⟨mark, known, written, -⟩ | ⟨written, -⟩ | ⟨written, plain, -⟩ <;>
    rw [written] at member
  · have marks : ∀ mark ∈ ['"', '\\', 'n', 'r', 't'],
        Literal.isControl '\\' = false ∧ Literal.isControl mark = false := by
      simp [Literal.isControl]
    rcases List.mem_pair.mp member with rfl | rfl
    · exact (marks mark known).1
    · exact (marks _ known).2
  · have marks : unicodeMarks.all (!Literal.isControl ·) = true := by decide
    simpa using List.all_eq_true.mp marks d (mem_unicodeMarks member)
  · rw [List.mem_singleton.mp member]
    exact plain

/-! ### All literals -/

/-- What a value is in the language: identifiers are integers of the same bits. -/
def constant : (kind : LiteralKind) → kind.Value → Constant
  | .id, id => .int id.bits.toInt32
  | .int, value => .int value
  | .bool, value => .boolean value
  | .string, value => .string (utf16 value.toList)

theorem constant_inj {kind : LiteralKind} {value other : kind.Value}
    (same : constant kind value = constant kind other) : value = other := by
  cases kind with
  | id =>
    -- The bits are the same, whether they are read with a sign or without.
    have bits := congrArg Int32.toUInt32 (Constant.int.inj same)
    cases value
    cases other
    exact congrArg ResourceId.mk bits
  | int => exact Constant.int.inj same
  | bool => exact Constant.boolean.inj same
  | string => exact String.toList_inj.mp (utf16_inj (Constant.string.inj same))

theorem isAlphanum_of_mem_digits {value : Nat} :
    ∀ c ∈ Text.digits 10 value, c.isAlphanum = true :=
  Text.forall_mem_digits (by decide) (by decide) value

theorem read_decimal (value : Int32) (more : List Char) {mark : Char}
    (ends : endsWord mark = true) :
    read ((Text.decimal value.toInt).toList ++ mark :: more) = some (.int value, mark :: more) := by
  have low := value.le_toInt
  have high := value.toInt_lt
  unfold Text.decimal
  rw [String.toList_ofList]
  split
  next negative =>
    have magnitude : -Int32.ofNat value.toInt.natAbs = value := by
      rw [← Int32.ofInt_eq_ofNat, ← Int32.ofInt_neg, Int.ofNat_natAbs_of_nonpos (by omega),
        Int.neg_neg, Int32.ofInt_toInt]
    rw [read_minus isAlphanum_of_mem_digits ends, intOf?_digits (by rw [if_pos rfl]; omega)]
    simp only [if_true, magnitude, Option.map_some]
  next positive =>
    have magnitude : Int32.ofNat value.toInt.natAbs = value := by
      rw [← Int32.ofInt_eq_ofNat, Int.natAbs_of_nonneg (by omega), Int32.ofInt_toInt]
    -- A numeral begins with a digit, so it is none of the two keywords.
    have begins : ∀ c, (Text.digits 10 value.toInt.natAbs).head? = some c → c ≠ 't' ∧ c ≠ 'f' := by
      intro c head
      have no_letter : ∀ d ∈ Text.digits 10 value.toInt.natAbs, d ≠ 't' ∧ d ≠ 'f' :=
        Text.forall_mem_digits (by decide) (by decide) _
      exact no_letter c (List.mem_of_mem_head? head)
    rw [read_word _ (Text.digits_ne_nil _ _) isAlphanum_of_mem_digits ends,
      ofWord?_of_head (fun head => (begins _ head).1 rfl) (fun head => (begins _ head).2 rfl),
      intOf?_digits (by rw [if_neg (by decide)]; omega)]
    simp [magnitude]

theorem isAlphanum_of_mem_id {id : ResourceId} : ∀ c ∈ id.text.toList, c.isAlphanum = true := by
  intro c member
  rw [ResourceId.text, String.toList_ofList, List.mem_cons, List.mem_cons] at member
  rcases member with rfl | rfl | member
  · decide
  · decide
  · exact Text.forall_mem_fixedDigits (P := (·.isAlphanum = true)) (by decide)
      Literal.isAlphanum_digit 8 _ c member

theorem read_text (kind : LiteralKind) (value : kind.Value) (more : List Char) {mark : Char}
    (ends : endsWord mark = true) :
    read ((Literal.text kind value).toList ++ mark :: more) =
      some (constant kind value, mark :: more) := by
  cases kind with
  | id =>
    rw [Literal.text, read_word _ (by simp [ResourceId.text]) isAlphanum_of_mem_id ends,
      ResourceId.text, String.toList_ofList, ofWord?_of_head (by simp) (by simp),
      intOf?_hexadecimal]
    rfl
  | int => exact read_decimal value more ends
  | bool =>
    cases value
    · exact read_word "false".toList (by decide) (by simp) ends
    · exact read_word "true".toList (by decide) (by simp) ends
  | string =>
    have no_mark : ∀ d ∈ [' ', '\t', '\x0c', '\n', '\r', ';', ','], d ≠ '"' ∧ d ≠ '\\' := by simp
    obtain ⟨no_quote, no_slash⟩ := no_mark mark (of_decide_eq_true ends)
    have text : (Literal.text .string value).toList ++ mark :: more =
        '"' :: (value.toList.flatMap Literal.escape ++ '"' :: mark :: more) := by
      simp [Literal.text, Literal.string]
    rw [text]
    exact readString?_string value.toList more no_quote no_slash

/-- Before a semicolon, a comma or a line end the literal of a value is read as that value, and what
follows it is left as it is. A string literal holds no line end, and the first quote in it that an
even number of backslashes stands before is the one at its end. -/
theorem read_text_append {mark : Char} (goes_on : mark ∈ [';', ',', '\n']) (more : List Char) :
    (∀ (kind : LiteralKind) (value : kind.Value),
      read ((Literal.text kind value).toList ++ mark :: more) =
        some (constant kind value, mark :: more)) ∧
    (∀ (kind : LiteralKind) (value other : kind.Value),
      constant kind value = constant kind other → value = other) ∧
    ∀ value : String, ∃ body, (Literal.string value).toList = '"' :: body ++ ['"'] ∧
      '\n' ∉ body ∧ '\r' ∉ body ∧ Even (slashesAtEnd body) ∧
      ∀ before after, body = before ++ '"' :: after → ¬ Even (slashesAtEnd before) := by
  have ends : ∀ d ∈ [';', ',', '\n'], endsWord d = true := by simp [endsWord]
  refine ⟨fun kind value => read_text kind value more (ends mark goes_on),
    fun kind value other => constant_inj, fun value => ?_⟩
  have outside {c : Char} (control : Literal.isControl c = true) :
      c ∉ value.toList.flatMap Literal.escape := by
    intro member
    obtain ⟨d, -, inside⟩ := List.mem_flatMap.mp member
    rw [isControl_of_mem_escape inside] at control
    cases control
  exact ⟨value.toList.flatMap Literal.escape, String.toList_ofList, outside (by decide),
    outside (by decide), even_slashesAtEnd value.toList,
    fun _ _ quote => odd_slashesAtEnd value.toList quote⟩

/-- A backslash before a `u`, a control character and a character of two code units, with a broken
Unicode escape after the literal. -/
theorem read_mixedText :
    ';' ∈ [';', ',', '\n'] ∧
      (Literal.text .string "\\u\x01😀").toList = "\"\\\\u\\u0001😀\"".toList ∧
      read ((Literal.text .string "\\u\x01😀").toList ++ ";\\u".toList) =
        some (.string [0x5c, 0x75, 0x01, 0xd83d, 0xde00], ";\\u".toList) := by
  have goes_on : ';' ∈ [';', ',', '\n'] := by decide
  have reads := (read_text_append goes_on "\\u".toList).1 .string "\\u\x01😀"
  exact ⟨goes_on, by decide, reads⟩

end JavaSource.Lexical
