import JavaSource.Text.Blank
import JavaSource.Text.Lines
import JavaSource.Text.Occurs

/-!
# Documentation of a member

Comment text is kept line by line, each line trimmed. A line with `@SystemApi` is left out and
marks the member as system API; of the others, one with `@deprecated` stays and marks the member
as deprecated. Annotations are kept apart from the comment.
-/
namespace JavaSource

structure Doc where
  lines : List String := []
  deprecated : Bool := false
  systemApi : Bool := false
  annotations : List String := []
  deriving DecidableEq, Repr

namespace Doc

def systemApiTag : List Char := "@SystemApi".toList

def deprecatedTag : List Char := "@deprecated".toList

def addLine (doc : Doc) (line : String) : Doc :=
  if Text.occurs systemApiTag line.toList then { doc with systemApi := true }
  else
    { doc with
      lines := doc.lines ++ [line]
      deprecated := doc.deprecated || Text.occurs deprecatedTag line.toList }

def comment (doc : Doc) (text : String) : Doc :=
  ((Text.lines text).map Text.trim).foldl addLine doc

/-- Adds an annotation, given without its `@`. -/
def annotate (doc : Doc) (text : String) : Doc :=
  { doc with annotations := doc.annotations ++ [text] }

inductive Step where
  | comment (text : String)
  | annotate (text : String)
  deriving DecidableEq, Repr

def apply (doc : Doc) : Step → Doc
  | .comment text => doc.comment text
  | .annotate text => doc.annotate text

def ofSteps (steps : List Step) : Doc := steps.foldl apply {}

def isEmpty (doc : Doc) : Bool :=
  doc.lines.isEmpty && !doc.deprecated && !doc.systemApi && doc.annotations.isEmpty

/-- One line at a margin. -/
def linePieces (margin text : String) : List String := [margin, text, "\n"]

def commentPieces (margin : String) (lines : List String) : List String :=
  if lines.isEmpty then []
  else
    linePieces margin "/**" ++
      lines.flatMap (fun line =>
        if line.isEmpty then linePieces margin " *" else [margin, " * ", line, "\n"]) ++
      linePieces margin " */"

/-- The comment block, then the annotations, as the texts that are written one after another. -/
def pieces (doc : Doc) (margin : String) : List String :=
  commentPieces margin doc.lines ++
    (if doc.deprecated then linePieces margin "@Deprecated" else []) ++
    (if doc.systemApi then linePieces margin "@android.annotation.SystemApi" else []) ++
    doc.annotations.flatMap (fun text => [margin, "@", text, "\n"])

def render (doc : Doc) (margin : String) : String := String.join (doc.pieces margin)

end Doc

end JavaSource
