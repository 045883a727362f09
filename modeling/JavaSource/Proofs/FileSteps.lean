import JavaSource.File

/-!
# Files put together in steps

A file begins with a package and a root class, and is given options and members in any order. Its
options are the last that were given, and replace the earlier ones as a whole. Its package is the
last that was given with options: options without a package leave it as it is.
-/
namespace JavaSource.File

inductive Step where
  | options (content : Options)
  | add (content : Member)

def apply (file : File) : Step → File
  | .options content => file.withOptions content
  | .add content => file.add content

/-- The file that some steps make of a new one. -/
def ofSteps (package : String) (root : ClassDef) (steps : List Step) : File :=
  steps.foldl apply { package, root }

def Step.options? : Step → Option Options
  | .options content => some content
  | .add _ => none

def Step.member? : Step → Option Member
  | .options _ => none
  | .add content => some content

/-- The options that some steps give, and before any are given those of the file. -/
def lastOptions (start : Options) (steps : List Step) : Options :=
  (steps.filterMap Step.options?).getLast?.getD start

/-- The package of the last options that have one, and before there are any that of the file. -/
def lastPackage (start : String) (steps : List Step) : String :=
  ((steps.filterMap Step.options?).filterMap Options.package).getLast?.getD start

/-- A class with the members that some steps add to it, after those it has. -/
def grown (root : ClassDef) (steps : List Step) : ClassDef :=
  { root with members := root.members ++ steps.filterMap Step.member? }

/-! ### What one step leaves of a run -/

section Step

variable (rest : List Step)

theorem lastOptions_options (start content : Options) :
    lastOptions start (.options content :: rest) = lastOptions content rest := by
  simp [lastOptions, Step.options?, List.getLast?_cons]

theorem lastOptions_add (start : Options) (content : Member) :
    lastOptions start (.add content :: rest) = lastOptions start rest := rfl

theorem lastPackage_options (start : String) (content : Options) :
    lastPackage start (.options content :: rest) =
      lastPackage (content.package.getD start) rest := by
  cases package : content.package with
  | none => simp [lastPackage, Step.options?, package]
  | some name => simp [lastPackage, Step.options?, package, List.getLast?_cons]

theorem lastPackage_add (start : String) (content : Member) :
    lastPackage start (.add content :: rest) = lastPackage start rest := rfl

theorem grown_options (root : ClassDef) (content : Options) :
    grown root (.options content :: rest) = grown root rest := rfl

theorem grown_add (root : ClassDef) (content : Member) :
    grown root (.add content :: rest) = grown (root.add content) rest := by
  simp [grown, ClassDef.add, Step.member?]

end Step

/-! ### Runs of steps -/

theorem foldl_apply (file : File) (steps : List Step) :
    steps.foldl apply file =
      { package := lastPackage file.package steps
        root := grown file.root steps
        options := lastOptions file.options steps } := by
  induction steps generalizing file with
  | nil => simp [lastPackage, lastOptions, grown]
  | cons step rest ih =>
    -- The rest of the run begins with the file that the first step leaves.
    rw [List.foldl_cons, ih]
    cases step with
    | options content =>
      rw [lastPackage_options, lastOptions_options, grown_options]
      rfl
    | add content =>
      rw [lastPackage_add, lastOptions_add, grown_add]
      rfl

/-- The package of the file is the one in its options, if there is one in them. -/
def Agrees (file : File) : Prop := ∀ name, file.options.package = some name → file.package = name

theorem agrees_apply {file : File} (agrees : file.Agrees) (step : Step) :
    (file.apply step).Agrees := by
  cases step with
  | options content =>
    -- Whatever was agreed on before, the package is taken from the new options.
    intro name given
    change content.package = some name at given
    change content.package.getD file.package = name
    rw [given, Option.getD_some]
  | add content => exact agrees

theorem agrees_foldl_apply {file : File} (agrees : file.Agrees) (steps : List Step) :
    (steps.foldl apply file).Agrees := by
  induction steps generalizing file with
  | nil => exact agrees
  | cons step rest ih => exact ih (agrees_apply agrees step)

/-- Whatever options and members a file is given, in whatever order: it is rendered with the banner,
the indentation and the finality of the last options, or of the default ones if none were given;
with the package of the last options that have one, or its first package; and with the members of
its root class in the order they were added. The package in its options is always its own. -/
theorem render_ofSteps (package : String) (root : ClassDef) (steps : List Step) :
    (ofSteps package root steps).render =
      (lastOptions {} steps).banner.getD warningBanner ++ "\n\npackage " ++
        lastPackage package steps ++ ";\n\n" ++
        (grown root steps).toMember.render "" (.ofOptions (lastOptions {} steps)) ∧
    ∀ name, (ofSteps package root steps).options.package = some name →
      (ofSteps package root steps).package = name := by
  constructor
  · rw [ofSteps, foldl_apply, render_eq]
    simp only [banner, String.append_assoc]
  · have agrees : ({ package, root } : File).Agrees := nofun
    exact agrees_foldl_apply agrees steps

/-- Options with a package and a banner, a class, and options that only have an indentation. -/
def mixedSteps : List Step :=
  [.options { package := some "com.lib", finalFields := false, banner := some "/* lib */" },
    .add (.nested { name := "string", createIfEmpty := true } []),
    .options { indent := .tab }]

/-- The later options take the banner and the finality back, but not the package. -/
theorem render_ofSteps_mixedSteps :
    (ofSteps "org.app" { head := { name := "R" } } mixedSteps).render =
      warningBanner ++ "\n\npackage com.lib;\n\n" ++
        "public final class R \x7b\n\tpublic final class string \x7b\n\t\x7d\n\x7d" ∧
    (ofSteps "org.app" { head := { name := "R" } } (mixedSteps.take 2)).options.package =
      some "com.lib" ∧
    (ofSteps "org.app" { head := { name := "R" } } (mixedSteps.take 2)).package = "com.lib" := by
  have given : (ofSteps "org.app" { head := { name := "R" } } (mixedSteps.take 2)).options.package =
      some "com.lib" := rfl
  obtain ⟨text, -⟩ := render_ofSteps "org.app" { head := { name := "R" } } mixedSteps
  obtain ⟨-, agrees⟩ := render_ofSteps "org.app" { head := { name := "R" } } (mixedSteps.take 2)
  exact ⟨text.trans (by rfl), given, agrees _ given⟩

end JavaSource.File
