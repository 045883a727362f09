import JavaSource.Literal
import JavaSource.Proofs.Delimited
import JavaSource.Proofs.Digits

/-!
# Literals read back

Where a literal ends can be told from its text when a comma follows, and literals of one Java type
with the same text are the same constant. Only an integer and a resource identifier have one Java
type in common, and only the text of an identifier has an `x` in it.
-/
namespace JavaSource.Literal

/-! ### Literals other than strings -/

theorem isAlphanum_digit : ∀ part < 16, (Text.digit part).isAlphanum = true := by decide

/-- Letters, digits and the minus sign make up all literals that are no strings. -/
theorem plain_of_mem_text {kind : LiteralKind} {value : kind.Value} {c : Char}
    (no_string : kind ≠ .string) (member : c ∈ (text kind value).toList) :
    c.isAlphanum = true ∨ c = '-' := by
  cases kind with
  | id =>
    left
    simp only [text, ResourceId.text, String.toList_ofList, List.mem_cons] at member
    rcases member with rfl | rfl | member
    · decide
    · decide
    · obtain ⟨part, small, rfl⟩ := Text.exists_digit_of_mem_fixedDigits (by decide) member
      exact isAlphanum_digit part small
  | int =>
    rcases Text.mem_decimal member with minus | ⟨part, small, rfl⟩
    · exact .inr minus
    · exact .inl (isAlphanum_digit part (by omega))
  | bool =>
    have letters : (text .bool value).toList.all Char.isAlphanum = true := by
      cases value <;> decide
    exact .inl (List.all_eq_true.mp letters c member)
  | string => exact absurd rfl no_string

theorem not_mem_text {kind : LiteralKind} {c : Char} (no_string : kind ≠ .string)
    (other : ¬ (c.isAlphanum = true ∨ c = '-')) (value : kind.Value) :
    c ∉ (text kind value).toList :=
  fun member => other (plain_of_mem_text no_string member)

/-! ### Strings -/

/-- Reads what stands after a backslash. -/
def unescapeSlash : List Char → Option (Char × List Char)
  | 'n' :: rest => some ('\n', rest)
  | 'r' :: rest => some ('\r', rest)
  | 't' :: rest => some ('\t', rest)
  | 'u' :: a :: b :: c :: d :: rest =>
    (Text.ofDigits? 16 [a, b, c, d]).map (fun value => (Char.ofNat value, rest))
  | c :: rest => some (c, rest)
  | [] => none

/-- Reads one character of a string, escaped or not. -/
def unescape : List Char → Option (Char × List Char)
  | [] => none
  | c :: rest => if c = '\\' then unescapeSlash rest else some (c, rest)

theorem unescape_escape (c : Char) (rest : List Char) :
    unescape (escape c ++ rest) = some (c, rest) := by
  unfold escape
  split
  · rfl
  · rfl
  · rfl
  · rfl
  · rfl
  next no_quote no_slash _ _ _ =>
    split
    next control =>
      -- No control character has more than four digits.
      have small : c.toNat < 16 ^ 4 := by
        simp only [isControl, Bool.or_eq_true, Bool.and_eq_true, decide_eq_true_eq] at control
        omega
      have digits : Text.fixedDigits 16 4 c.toNat =
          [Text.digit (c.toNat / 16 / 16 / 16 % 16), Text.digit (c.toNat / 16 / 16 % 16),
            Text.digit (c.toNat / 16 % 16), Text.digit (c.toNat % 16)] := rfl
      have value : Text.ofDigits? 16 (Text.fixedDigits 16 4 c.toNat) = some c.toNat := by
        rw [Text.ofDigits?_eq, digits, if_neg (by simp), ← digits,
          Text.foldlM_readDigit_fixedDigits (by decide) (by decide), Nat.mod_eq_of_lt small]
        simp
      rw [digits] at value ⊢
      simp [unescape, unescapeSlash, value]
    next => exact if_neg no_slash

theorem escape_append_inj {c d : Char} {rest more : List Char}
    (same : escape c ++ rest = escape d ++ more) : c = d ∧ rest = more := by
  have read := (unescape_escape c rest).symm.trans (congrArg unescape same)
  simpa [unescape_escape] using read

/-- A quote inside a string does not begin like the quote that closes it. -/
theorem escape_ne_quote (c : Char) : ∃ mark rest, escape c = mark :: rest ∧ mark ≠ '"' := by
  unfold escape
  split
  · exact ⟨_, _, rfl, by decide⟩
  · exact ⟨_, _, rfl, by decide⟩
  · exact ⟨_, _, rfl, by decide⟩
  · exact ⟨_, _, rfl, by decide⟩
  · exact ⟨_, _, rfl, by decide⟩
  next no_quote _ _ _ _ =>
    split
    · exact ⟨_, _, rfl, by decide⟩
    · exact ⟨c, [], rfl, no_quote⟩

theorem string_append_inj {value other : String} {rest more : List Char}
    (same : (string value).toList ++ rest = (string other).toList ++ more) :
    value = other ∧ rest = more := by
  simp only [string, String.toList_ofList, List.cons_append, List.append_assoc, List.nil_append,
    List.cons.injEq, true_and] at same
  have read : value.toList.map id = other.toList.map id ∧ rest = more :=
    Delimited.flatMap_inj (fun _ _ _ _ _ _ => escape_append_inj)
      (fun c _ => escape_ne_quote c) same
  simpa [String.toList_inj] using read

/-! ### All literals -/

/-- The text of a literal ends where a comma can follow. -/
theorem text_comma_inj {kind other : LiteralKind} {value : kind.Value} {constant : other.Value}
    (type : kind.javaType = other.javaType) {rest more : List Char}
    (same : (text kind value).toList ++ ',' :: rest = (text other constant).toList ++ ',' :: more) :
    text kind value = text other constant ∧ rest = more := by
  -- Only a string can have a comma inside, and a string ends at its own quote.
  by_cases string : kind = .string ∧ other = .string
  · obtain ⟨rfl, rfl⟩ := string
    simp only [text] at same
    obtain ⟨rfl, after⟩ := string_append_inj same
    exact ⟨rfl, (List.cons.inj after).2⟩
  · have neither : kind ≠ .string ∧ other ≠ .string := by
      revert type string
      cases kind <;> cases other <;> decide
    obtain ⟨here, later⟩ := Delimited.append_inj (not_mem_text neither.1 (by decide) value)
      (not_mem_text neither.2 (by decide) constant) same
    exact ⟨String.toList_inj.mp here, later⟩

theorem idText_inj {id other : ResourceId} (same : id.text = other.text) : id = other := by
  have small (bits : UInt32) : bits.toNat < 16 ^ 8 := bits.toNat_lt
  unfold ResourceId.text at same
  rw [String.ofList_inj, List.cons.injEq, List.cons.injEq] at same
  have digits := Text.fixedDigits_inj (by decide) (by decide) (small _) (small _) same.2.2
  exact congrArg ResourceId.mk (UInt32.toNat_inj.mp digits)

theorem idText_ne_decimal (id : ResourceId) (value : Int) : id.text ≠ Text.decimal value := by
  intro same
  have x : 'x' ∈ (Text.decimal value).toList := by simp [← same, ResourceId.text]
  rcases Text.mem_decimal x with minus | digit
  · exact absurd minus (by decide)
  · exact absurd digit (by decide)

/-- Literals of one Java type have the same text only if they are the same constant. -/
theorem text_inj {kind other : LiteralKind} {value : kind.Value} {constant : other.Value}
    (type : kind.javaType = other.javaType) (same : text kind value = text other constant) :
    (⟨kind, value⟩ : (kind : LiteralKind) × kind.Value) = ⟨other, constant⟩ := by
  cases kind <;> cases other
  case id.id => rw [idText_inj same]
  case id.int => exact absurd same (idText_ne_decimal _ _)
  case int.id => exact absurd same.symm (idText_ne_decimal _ _)
  case int.int => rw [Int32.toInt_inj.mp (Text.decimal_inj same)]
  case bool.bool => cases value <;> cases constant <;> first | rfl | exact absurd same (by decide)
  case string.string =>
    have texts : (string value).toList ++ [] = (string constant).toList ++ [] := by
      rw [show string value = string constant from same]
    obtain ⟨rfl, -⟩ := string_append_inj texts
    rfl
  all_goals exact absurd type (by decide)

/-- Only of no constants at all the kind cannot be told. -/
theorem map_text_inj {kind other : LiteralKind} {values : List kind.Value}
    {constants : List other.Value} (type : kind.javaType = other.javaType)
    (same : values.map (text kind) = constants.map (text other)) :
    values = [] ∧ constants = [] ∨
      (⟨kind, values⟩ : (kind : LiteralKind) × List kind.Value) = ⟨other, constants⟩ := by
  cases values with
  | nil => exact .inl ⟨rfl, List.map_eq_nil_iff.mp same.symm⟩
  | cons value rest =>
    cases constants with
    | nil => exact absurd same (List.cons_ne_nil _ _)
    | cons constant more =>
      obtain rfl : kind = other :=
        congrArg Sigma.fst (text_inj type (List.cons.inj same).1)
      have different (a b : kind.Value) (same : text kind a = text kind b) : a = b :=
        eq_of_heq (Sigma.mk.inj (text_inj rfl same)).2
      rw [(List.map_inj_right different).mp same]
      exact .inr rfl

/-- Literals that are each followed by a comma and a blank. -/
theorem join_texts_inj {kind other : LiteralKind} {values : List kind.Value}
    {constants : List other.Value} (type : kind.javaType = other.javaType)
    (same : String.join ((values.map (text kind)).map (· ++ ", ")) =
      String.join ((constants.map (text other)).map (· ++ ", "))) :
    values.map (text kind) = constants.map (text other) := by
  rw [← String.toList_inj] at same
  induction values generalizing constants with
  | nil =>
    cases constants with
    | nil => rfl
    | cons constant more => simp at same
  | cons value rest ih =>
    cases constants with
    | nil => simp at same
    | cons constant more =>
      simp only [List.map_cons, String.join_cons, String.toList_append, List.append_assoc] at same
      obtain ⟨here, later⟩ := text_comma_inj type same
      have there := ih (List.cons.inj later).2
      rw [List.map_cons, List.map_cons, here, there]

end JavaSource.Literal
