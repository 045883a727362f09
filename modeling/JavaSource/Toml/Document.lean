import JavaSource.Toml.Statement

/-!
# Documents

Reads a TOML 1.1 document. The only answer to a text that is no document is `none`.
-/
namespace JavaSource.Toml

def Table.ofStatements? (statements : List Statement) : Option Table :=
  let (assignments, sections) := Statement.sections statements
  Table.ofSections? (⟨none, assignments⟩ :: sections)

def read? (document : String) : Option Table := do
  let tokens ← Token.scan? document
  let statements ← Statement.readAll? tokens.length tokens
  Table.ofStatements? statements

end JavaSource.Toml
