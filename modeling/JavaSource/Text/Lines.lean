/-!
# Lines of a text

A line ends at `\n` or at `\r\n`, and the line end belongs to no line. A line end that closes the
text opens no further line, so the empty text has no lines.
-/
namespace JavaSource.Text

def splitLines : List Char → List (List Char)
  | [] => []
  | '\n' :: rest => [] :: splitLines rest
  | '\r' :: '\n' :: rest => [] :: splitLines rest
  | c :: rest =>
    match splitLines rest with
    | [] => [[c]]
    | line :: more => (c :: line) :: more

def lines (text : String) : List String := (splitLines text.toList).map String.ofList

end JavaSource.Text
