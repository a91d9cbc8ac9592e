import Reckoner.Text.Visible

/-!
# Quoted strings

A string is quoted between double quotes so that it can be read off one line. The
quote and the backslash stand behind a backslash; tab, line feed, carriage return
and the zero character have a letter or a digit of their own behind one. Any other
character that cannot be seen by itself is written by its code point, in
hexadecimal and between braces.
-/

namespace Reckoner.Text

/-- How a character is written between quotes. -/
def quoteChar (c : Char) : List Char :=
  match c with
  | '"' => ['\\', '"']
  | '\\' => ['\\', '\\']
  | '\t' => ['\\', 't']
  | '\n' => ['\\', 'n']
  | '\r' => ['\\', 'r']
  | '\x00' => ['\\', '0']
  | c =>
    if isVisible c then [c]
    else ['\\', 'u', '\x7b'] ++ Nat.toDigits 16 c.toNat ++ ['\x7d']

/-- **A quoted string.** -/
def quote (x : String) : String :=
  .ofList ('"' :: x.toList.flatMap quoteChar ++ ['"'])

end Reckoner.Text
