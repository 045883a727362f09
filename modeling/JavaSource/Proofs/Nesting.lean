import JavaSource.Proofs.Layout

/-!
# Members inside classes

A member stands inside a class, which may stand inside another, and so on. Around a member that may
be any, such classes are a nesting with a hole. A class with a hole is never left out, whatever is
put into the hole, and its margin, its documentation and the members beside the hole do not look at
it either. So the text around the hole is the same for all members, and an edit of one subtree stays
in the lines of that subtree.
-/
namespace JavaSource

/-- A class with a hole among its members. -/
structure Enclosure where
  head : ClassHead
  before : List Member := []
  after : List Member := []

namespace Enclosure

/-- The class with a member in its hole. -/
def fill (enclosure : Enclosure) (member : Member) : Member :=
  .nested enclosure.head (enclosure.before ++ member :: enclosure.after)

/-- The text of the class before the hole: its head and the members there. -/
def opening (enclosure : Enclosure) (context : Context) (margin : String) : String :=
  String.join (enclosure.head.pieces margin) ++
    String.join (Member.innerPieces context (context.inner margin) enclosure.before)

/-- The text of the class after the hole, from the line end of the member in it. -/
def closing (enclosure : Enclosure) (context : Context) (margin : String) : String :=
  "\n" ++ String.join (Member.innerPieces context (context.inner margin) enclosure.after) ++
    (margin ++ "\x7d")

end Enclosure

/-! ### One class -/

namespace Member

/-- A class with members is shown: its head, each member with a line end, and the closing line. -/
theorem render_nested (context : Context) (margin : String) (head : ClassHead)
    (members : List Member) (some_member : members ≠ []) :
    (nested head members).render margin context =
      String.join (head.pieces margin) ++
        String.join (innerPieces context (context.inner margin) members) ++ (margin ++ "\x7d") := by
  rw [render, pieces, if_neg (by simp [some_member])]
  simp [String.append_assoc]

theorem join_innerPieces_append (context : Context) (margin : String)
    (first second : List Member) :
    String.join (innerPieces context margin (first ++ second)) =
      String.join (innerPieces context margin first) ++
        String.join (innerPieces context margin second) := by
  simp [innerPieces_eq_flatMap]

theorem join_innerPieces_cons (context : Context) (margin : String) (member : Member)
    (rest : List Member) :
    String.join (innerPieces context margin (member :: rest)) =
      member.render margin context ++ "\n" ++
        String.join (innerPieces context margin rest) := by
  simp [innerPieces, render, String.append_assoc]

end Member

theorem Enclosure.render_fill (enclosure : Enclosure) (context : Context) (margin : String)
    (member : Member) :
    (enclosure.fill member).render margin context =
      enclosure.opening context margin ++ member.render (context.inner margin) context ++
        enclosure.closing context margin := by
  rw [fill, Member.render_nested context margin _ _ (by simp), Member.join_innerPieces_append,
    Member.join_innerPieces_cons, opening, closing]
  simp only [String.append_assoc]

/-- A class with two holes: what stands before, between and after them is the same for all members
in the holes. -/
theorem Member.exists_render_nested_two (context : Context) (margin : String) (head : ClassHead)
    (before between after : List Member) :
    ∃ start middle stop, ∀ first second : Member,
      (nested head (before ++ first :: between ++ second :: after)).render margin context =
        start ++ first.render (context.inner margin) context ++ middle ++
          second.render (context.inner margin) context ++ stop := by
  refine ⟨(Enclosure.mk head before []).opening context margin,
    "\n" ++ String.join (innerPieces context (context.inner margin) between),
    (Enclosure.mk head [] after).closing context margin, fun first second => ?_⟩
  rw [render_nested context margin _ _ (by simp), join_innerPieces_append, join_innerPieces_append,
    join_innerPieces_cons, join_innerPieces_cons, Enclosure.opening, Enclosure.closing]
  simp only [String.append_assoc]

/-! ### Classes inside classes -/

/-- The classes around a hole, the outermost first. -/
abbrev Nesting := List Enclosure

namespace Nesting

/-- The outermost class, with a member in the hole of the innermost. -/
def fill (nesting : Nesting) (member : Member) : Member := nesting.foldr Enclosure.fill member

def opening (context : Context) : String → Nesting → String
  | _, [] => ""
  | margin, enclosure :: inner =>
    enclosure.opening context margin ++ opening context (context.inner margin) inner

def closing (context : Context) : String → Nesting → String
  | _, [] => ""
  | margin, enclosure :: inner =>
    closing context (context.inner margin) inner ++ enclosure.closing context margin

/-- One level down is one unit more of margin for all levels below. -/
theorem indented_inner (context : Context) (margin : String) (depth : Nat) :
    indented (context.inner margin) context.indent.unit depth =
      indented margin context.indent.unit (depth + 1) := by
  simp [indented, Context.inner, List.replicate_succ, String.append_assoc]

theorem render_fill (nesting : Nesting) (context : Context) (margin : String) (member : Member) :
    (nesting.fill member).render margin context =
      opening context margin nesting ++
        member.render (indented margin context.indent.unit nesting.length) context ++
        closing context margin nesting := by
  induction nesting generalizing margin with
  | nil => simp [fill, opening, closing, indented_zero]
  | cons enclosure inner ih =>
    change (enclosure.fill (fill inner member)).render margin context = _
    rw [enclosure.render_fill, ih, indented_inner, opening, closing, List.length_cons]
    simp only [String.append_assoc]

theorem opening_append (context : Context) (margin : String) (outer inner : Nesting) :
    opening context margin (outer ++ inner) =
      opening context margin outer ++
        opening context (indented margin context.indent.unit outer.length) inner := by
  induction outer generalizing margin with
  | nil => simp [opening, indented_zero]
  | cons enclosure outer ih =>
    rw [List.cons_append, opening, opening, ih, indented_inner, List.length_cons,
      String.append_assoc]

theorem closing_append (context : Context) (margin : String) (outer inner : Nesting) :
    closing context margin (outer ++ inner) =
      closing context (indented margin context.indent.unit outer.length) inner ++
        closing context margin outer := by
  induction outer generalizing margin with
  | nil => simp [closing, indented_zero]
  | cons enclosure outer ih =>
    rw [List.cons_append, closing, closing, ih, indented_inner, List.length_cons,
      String.append_assoc]

/-- The head of each class of a nesting stands before the hole, at the margin of the class. -/
theorem exists_head_in_opening (context : Context) (margin : String) (outer inner : Nesting)
    (enclosure : Enclosure) :
    ∃ above below, opening context margin (outer ++ enclosure :: inner) =
      above ++ String.join (enclosure.head.pieces
        (indented margin context.indent.unit outer.length)) ++ below := by
  let level := indented margin context.indent.unit outer.length
  refine ⟨opening context margin outer,
    String.join (Member.innerPieces context (context.inner level) enclosure.before) ++
      opening context (context.inner level) inner, ?_⟩
  rw [opening_append, opening, Enclosure.opening]
  simp only [String.append_assoc, level]

/-- The closing line of each class of a nesting stands after the hole. -/
theorem exists_end_in_closing (context : Context) (margin : String) (outer inner : Nesting)
    (enclosure : Enclosure) :
    ∃ above below, closing context margin (outer ++ enclosure :: inner) =
      above ++ (indented margin context.indent.unit outer.length ++ "\x7d") ++ below := by
  let level := indented margin context.indent.unit outer.length
  refine ⟨closing context (context.inner level) inner ++
      ("\n" ++ String.join
        (Member.innerPieces context (context.inner level) enclosure.after)),
    closing context margin outer, ?_⟩
  rw [closing_append, closing, Enclosure.closing]
  simp only [String.append_assoc, level]

/-- Around a hole stand the same two texts whatever member is put into it, so replacing or extending
that member changes nothing outside its own text. The texts hold the head and the closing line of
every class around the hole: none of them is ever left out, even if the member is. For two members
of a class the text around both of them is the same whatever they are, so swapping them swaps their
texts. -/
theorem render_fill_local (nesting : Nesting) (context : Context) (margin : String) :
    ∃ opening closing : String,
      (∀ member : Member, (nesting.fill member).render margin context =
        opening ++ member.render (indented margin context.indent.unit nesting.length) context ++
          closing) ∧
      (∀ outer enclosure inner, nesting = outer ++ enclosure :: inner →
        (∃ above below, opening = above ++ String.join (enclosure.head.pieces
          (indented margin context.indent.unit outer.length)) ++ below) ∧
        ∃ above below, closing =
          above ++ (indented margin context.indent.unit outer.length ++ "\x7d") ++ below) ∧
      ∀ head before between after, ∃ start middle stop, ∀ first second : Member,
        (nesting.fill (.nested head (before ++ first :: between ++ second :: after))).render margin
            context =
          opening ++
            (start ++
              first.render (indented margin context.indent.unit (nesting.length + 1)) context ++
              middle ++
              second.render (indented margin context.indent.unit (nesting.length + 1)) context ++
              stop) ++
            closing := by
  refine ⟨opening context margin nesting, closing context margin nesting,
    nesting.render_fill context margin, ?_, ?_⟩
  · rintro outer enclosure inner rfl
    constructor
    · exact exists_head_in_opening context margin outer inner enclosure
    · exact exists_end_in_closing context margin outer inner enclosure
  · intro head before between after
    obtain ⟨start, middle, stop, two⟩ := Member.exists_render_nested_two context
      (indented margin context.indent.unit nesting.length) head before between after
    refine ⟨start, middle, stop, fun first second => ?_⟩
    rw [nesting.render_fill, two, indented_succ]
    rfl

/-- A hole two classes deep, after a class that is left out. -/
def deepHole : Nesting :=
  [⟨{ name := "R" }, [], []⟩,
    ⟨{ name := "id", qualifier := .static }, [.nested { name := "none" } []], []⟩]

theorem render_fill_deepHole :
    deepHole = [⟨{ name := "R" }, [], []⟩] ++
      ⟨{ name := "id", qualifier := .static }, [.nested { name := "none" } []], []⟩ :: [] ∧
    ∃ opening closing : String,
      (∀ member : Member, (deepHole.fill member).render "" {} =
        opening ++ member.render "    " {} ++ closing) ∧
      ∃ above below, opening = above ++ "  public static final class id \x7b\n" ++ below := by
  obtain ⟨opening, closing, law, shown, -⟩ := render_fill_local deepHole {} ""
  refine ⟨rfl, opening, closing, fun member => law member, ?_⟩
  obtain ⟨above, below, split⟩ := (shown [⟨{ name := "R" }, [], []⟩] _ [] rfl).1
  exact ⟨above, below, split⟩

end Nesting

end JavaSource
