import JavaSource.Options.Banner

/-!
# Skipping a block comment

A reader of Java skips a block comment from its opening mark to the first closing mark after that,
whatever stands between the two.
-/
namespace JavaSource.Lexical

open Options (commentStart commentEnd)

/-- What follows the first closing mark. -/
def afterClose? : List Char → Option (List Char)
  | [] => none
  | '*' :: '/' :: rest => some rest
  | _ :: rest => afterClose? rest

/-- Skips a block comment at the start of a text, and says what text follows it. The closing mark
shares no character with the opening one. -/
def skipComment? : List Char → Option (List Char)
  | '/' :: '*' :: rest => afterClose? rest
  | _ => none

theorem afterClose?_mark (rest : List Char) : afterClose? (commentEnd ++ rest) = some rest := rfl

theorem afterClose?_cons {c : Char} {rest : List Char} (no_mark : ¬ commentEnd <+: c :: rest) :
    afterClose? (c :: rest) = afterClose? rest := by
  rw [afterClose?.eq_def]
  split
  next nothing => cases nothing
  next after starts =>
    -- The one case in which the reader stops here.
    rw [starts] at no_mark
    exact absurd (List.prefix_append commentEnd after) no_mark
  next d after _ same =>
    obtain ⟨rfl, rfl⟩ := List.cons.inj same
    rfl

/-- A text without closing marks does not begin one with the closing mark after it. -/
theorem not_prefix_append_mark {c : Char} {body : List Char}
    (none_inside : ¬ commentEnd <:+: c :: body) (rest : List Char) :
    ¬ commentEnd <+: c :: (body ++ commentEnd ++ rest) := by
  rintro ⟨after, starts⟩
  obtain ⟨rfl, same⟩ := List.cons.inj starts
  cases body with
  | nil =>
    -- A star and the closing mark after it.
    cases same
  | cons d more =>
    obtain ⟨rfl, -⟩ := List.cons.inj same
    exact none_inside (List.prefix_append commentEnd more).isInfix

theorem afterClose?_append {body : List Char} (none_inside : ¬ commentEnd <:+: body)
    (rest : List Char) : afterClose? (body ++ commentEnd ++ rest) = some rest := by
  induction body with
  | nil => exact afterClose?_mark rest
  | cons c more ih =>
    have later : ¬ commentEnd <:+: more :=
      fun inside => none_inside (List.infix_cons_iff.mpr (.inr inside))
    rw [List.cons_append, List.cons_append,
      afterClose?_cons (not_prefix_append_mark none_inside rest), ih later]

theorem exists_of_afterClose? {text rest : List Char} (found : afterClose? text = some rest) :
    ∃ body, ¬ commentEnd <:+: body ∧ text = body ++ commentEnd ++ rest := by
  induction text with
  | nil => cases found
  | cons c more ih =>
    by_cases mark : commentEnd <+: c :: more
    · obtain ⟨after, starts⟩ := mark
      rw [← starts, afterClose?_mark] at found
      obtain rfl := Option.some.inj found
      exact ⟨[], by decide, starts.symm⟩
    · rw [afterClose?_cons mark] at found
      obtain ⟨body, none_inside, rfl⟩ := ih found
      refine ⟨c :: body, fun inside => ?_, rfl⟩
      -- No mark begins at the first character, so one inside would be inside what follows it.
      rcases List.infix_cons_iff.mp inside with starts | later
      · refine mark (starts.trans ?_)
        rw [List.append_assoc, ← List.cons_append]
        exact List.prefix_append _ _
      · exact none_inside later

/-- What is skipped is the opening mark, a text without closing marks, and a closing mark. -/
theorem skipComment?_eq_some_iff (text rest : List Char) :
    skipComment? text = some rest ↔
      ∃ body, ¬ commentEnd <:+: body ∧ text = commentStart ++ body ++ commentEnd ++ rest := by
  constructor
  · intro skipped
    unfold skipComment? at skipped
    split at skipped
    next after =>
      obtain ⟨body, none_inside, rfl⟩ := exists_of_afterClose? skipped
      exact ⟨body, none_inside, rfl⟩
    next => cases skipped
  · rintro ⟨body, none_inside, rfl⟩
    exact afterClose?_append none_inside rest

theorem skipComment?_append {text rest : List Char} (skipped : skipComment? text = some rest)
    (more : List Char) : skipComment? (text ++ more) = some (rest ++ more) := by
  obtain ⟨body, none_inside, rfl⟩ := (skipComment?_eq_some_iff text rest).mp skipped
  exact (skipComment?_eq_some_iff _ _).mpr ⟨body, none_inside, by simp only [List.append_assoc]⟩

end JavaSource.Lexical
