import JavaSource.Text.Bytes
import JavaSource.Toml.Quoted
import JavaSource.Span

/-!
# Tokens

The marks, line ends, quoted strings and atoms of a document, each with its span and the blanks
before it. An atom is a run of other characters: a bare key, or a part of a number, a date or a
word. Comments make no token.
-/
namespace JavaSource.Toml

inductive Lexeme where
  | newline
  | dot
  | equals
  | comma
  | openBracket
  | closeBracket
  | openBrace
  | closeBrace
  | text (content : String) (manyLines : Bool)
  | atom (chars : List Char)
  deriving DecidableEq, Repr

namespace Lexeme

def mark? (c : Char) : Option Lexeme :=
  match c with
  | '\n' => some .newline
  | '.' => some .dot
  | '=' => some .equals
  | ',' => some .comma
  | '[' => some .openBracket
  | ']' => some .closeBracket
  | '\x7b' => some .openBrace
  | '\x7d' => some .closeBrace
  | _ => none

def isBlank (c : Char) : Bool := c == ' ' || c == '\t'

def isAtomChar (c : Char) : Bool := (mark? c).isNone && !isBlank c && c != '#' && c != '\r'

/-- A lexeme at the start of a text, how many bytes it takes, and what follows it. -/
structure Scanned where
  lexeme : Lexeme
  size : Nat
  rest : List Char

def ofReading (text : List Char) (manyLines : Bool) (reading : Quoted.Reading) : Option Scanned :=
  reading.map fun (content, rest) =>
    ⟨.text (String.ofList content) manyLines, Text.byteSize text - Text.byteSize rest, rest⟩

/-- Scans a text that begins with neither a blank nor a comment. -/
def scan? : List Char → Option Scanned
  | '"' :: '"' :: '"' :: rest =>
    ofReading ('"' :: '"' :: '"' :: rest) true
      (Quoted.escapedLines .plain (Quoted.dropLineEnd rest))
  | '"' :: rest => ofReading ('"' :: rest) false (Quoted.escapedLine .plain rest)
  | '\'' :: '\'' :: '\'' :: rest =>
    ofReading ('\'' :: '\'' :: '\'' :: rest) true
      (Quoted.literalLines (Quoted.dropLineEnd rest))
  | '\'' :: rest => ofReading ('\'' :: rest) false (Quoted.literalLine rest)
  | '\r' :: '\n' :: rest => some ⟨.newline, 2, rest⟩
  | '\r' :: _ => none
  | c :: rest =>
    match mark? c with
    | some lexeme => some ⟨lexeme, 1, rest⟩
    | none =>
      let (chars, rest) := (c :: rest).span isAtomChar
      some ⟨.atom chars, Text.byteSize chars, rest⟩
  | [] => none

end Lexeme

structure Token where
  lexeme : Lexeme
  span : Span
  blanks : List Char
  deriving DecidableEq, Repr

namespace Token

/-- A comment goes up to the end of its line; what is not allowed in a string is not allowed in it
either. Answers its size and what follows it. -/
def comment? (text : List Char) : Option (Nat × List Char) :=
  let (body, rest) := text.span Quoted.isAllowed
  match rest with
  | [] => some (Text.byteSize body, rest)
  | '\n' :: _ => some (Text.byteSize body, rest)
  | '\r' :: '\n' :: _ => some (Text.byteSize body, rest)
  | _ => none

/-- The tokens of a text that starts at an offset. Every step consumes a character or more, so a
step for each is enough. -/
def scanFrom? : Nat → Nat → List Char → Option (List Token)
  | 0, _, text => if text.isEmpty then some [] else none
  | steps + 1, offset, text =>
    let (blanks, rest) := text.span Lexeme.isBlank
    let start := offset + blanks.length
    match rest with
    | [] => some []
    | '#' :: rest => do
      let (size, after) ← comment? rest
      scanFrom? steps (start + 1 + size) after
    | rest => do
      let scanned ← Lexeme.scan? rest
      let tokens ← scanFrom? steps (start + scanned.size) scanned.rest
      some (⟨scanned.lexeme, ⟨start, scanned.size⟩, blanks⟩ :: tokens)

/-- The tokens of a document; a byte order mark in front of it is skipped, but counted. -/
def scan? (document : String) : Option (List Token) :=
  match document.toList with
  | '\ufeff' :: rest => scanFrom? rest.length 3 rest
  | text => scanFrom? text.length 0 text

end Token

end JavaSource.Toml
