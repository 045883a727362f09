import JavaSource.Text.Numeral
import JavaSource.Text.Unprintable

/-!
# Quoted text in messages

A message shows a text between double quotes so that every character of it can be told apart.
Quote, backslash, NUL, tab, carriage return and line feed have short escapes; an unprintable
character is written as its code point in braces.
-/
namespace JavaSource.Text

def quotedChar (c : Char) : List Char :=
  match c with
  | '\x00' => ['\\', '0']
  | '\t' => ['\\', 't']
  | '\r' => ['\\', 'r']
  | '\n' => ['\\', 'n']
  | '\\' => ['\\', '\\']
  | '"' => ['\\', '"']
  | c =>
    if isUnprintable c then ['\\', 'u', '\x7b'] ++ digits 16 c.toNat ++ ['\x7d']
    else [c]

def quoted (text : String) : String :=
  String.ofList ('"' :: text.toList.flatMap quotedChar ++ ['"'])

end JavaSource.Text
