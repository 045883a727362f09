import JavaSource.Text.Occurs

/-!
# Block comments

A banner is a single block comment: it starts with the opening mark, ends with the closing one, and
no closing mark stands between the two. The marks may not share a character.
-/
namespace JavaSource.Options

def commentStart : List Char := ['/', '*']

def commentEnd : List Char := ['*', '/']

/-- The text without its first two and its last two characters. -/
def inside (text : List Char) : List Char := (text.drop 2).take (text.length - 4)

def isBlockComment (text : String) : Bool :=
  4 ≤ text.utf8ByteSize &&
    commentStart.isPrefixOf text.toList &&
    commentEnd.isSuffixOf text.toList &&
    !Text.occurs commentEnd (inside text.toList)

end JavaSource.Options
