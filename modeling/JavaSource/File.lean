import JavaSource.Error
import JavaSource.Writer

/-!
# Java files

A file is a root class in a package, with options. Its text is the banner, the package statement
and the class. It is rendered to one text or written to a sink, piece by piece, in the same order.
-/
namespace JavaSource

/-- The comment at the top of a file whose options give no banner. -/
def warningBanner : String :=
  "/* AUTO-GENERATED FILE. DO NOT MODIFY.\n *\n" ++
  " * This class was automatically generated by the\n" ++
  " * aapt tool from the resource data it found. It\n" ++
  " * should not be modified by hand.\n */"

/-- The pieces of a whole file. -/
def filePieces (banner package : String) (root : ClassDef) (context : Context) : List String :=
  [banner, "\n", "\n", "package ", package, ";", "\n", "\n"] ++ root.toMember.pieces context ""

structure File where
  package : String
  root : ClassDef
  options : Options := {}

namespace File

/-- Takes over the options; a package in them replaces the one the file has. -/
def withOptions (file : File) (options : Options) : File :=
  { file with package := options.package.getD file.package, options }

def add (file : File) (member : Member) : File := { file with root := file.root.add member }

def banner (file : File) : String := file.options.banner.getD warningBanner

def pieces (file : File) : List String :=
  filePieces file.banner file.package file.root (.ofOptions file.options)

def render (file : File) : String := String.join file.pieces

theorem render_eq (file : File) :
    file.render = file.banner ++ ("\n\npackage " ++ (file.package ++ ";\n\n" ++
      file.root.toMember.render "" (.ofOptions file.options))) := by
  rw [← String.toList_inj]
  simp [render, pieces, filePieces, Member.render]

variable {σ : Type}

/-- Writes the file to a sink, and returns the writer that did it. -/
def send (file : File) (sink : Sink σ) (state : σ) : Writer σ :=
  Writer.pushAll sink { state } file.pieces

/-- The result of writing the file: the sink's first fault makes it fail. -/
def writeTo (file : File) (sink : Sink σ) (state : σ) : Except Error Unit :=
  (file.send sink state).finish.mapError .incomplete

/-- A file that is written to memory leaves there the bytes of its rendered text, and no others, so
that they can be taken for that text again. -/
theorem send_memory (file : File) :
    (file.send .memory []).state = Text.bytes file.render ∧
      Text.ofBytes? (file.send .memory []).state = some file.render ∧
      file.writeTo .memory [] = .ok () := by
  obtain ⟨healthy, held⟩ := Writer.pushAll_memory { state := [] } rfl file.pieces
  have kept : (file.send .memory []).state = Text.bytes file.render := held
  refine ⟨kept, by rw [kept, Text.ofBytes?_bytes], ?_⟩
  have sent : (file.send .memory []).fault = none := healthy
  rw [writeTo, Writer.finish, sent]
  rfl

end File

variable {σ : Type}

/-- Writes a class as a file of its own with the warning banner and the default indentation. -/
def sendClass (root : ClassDef) (package : String) (finalFields : Bool) (sink : Sink σ)
    (state : σ) : Writer σ :=
  Writer.pushAll sink { state } (filePieces warningBanner package root { finalFields })

/-- Whether writing the class as a file succeeds. -/
def writeClass (root : ClassDef) (package : String) (finalFields : Bool) (sink : Sink σ)
    (state : σ) : Bool :=
  (sendClass root package finalFields sink state).isHealthy

end JavaSource
