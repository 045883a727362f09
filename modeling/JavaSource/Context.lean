import JavaSource.Options

/-!
# Settings of one rendering
-/
namespace JavaSource

/-- What stays the same for the whole tree while it is rendered. -/
structure Context where
  indent : Indent := .java
  finalFields : Bool := true
  deriving DecidableEq, Repr

namespace Context

def ofOptions (options : Options) : Context := ⟨options.indent, options.finalFields⟩

/-- The margin of what stands one level below `margin`. -/
def inner (context : Context) (margin : String) : String := margin ++ context.indent.unit

end Context

end JavaSource
