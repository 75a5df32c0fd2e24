import SchemaPlan.Text.Extending
import SchemaPlan.Text.Printing

/-!
# Texts shown in messages

`shown` writes a text between double quotes such that every character of it can be seen: quotes
and backslashes stand after a backslash, and a character that does not print, that is ignorable,
or that would be drawn onto the one before it is given by its code point. Every other character
stands for itself.
-/

namespace SchemaPlan.Text

/-- Whether a character can be seen on its own. -/
def isSeen (c : Char) : Bool :=
  isPrinting c && !isIgnorable c && !isExtending c

/-- A character as its code point, in hexadecimal digits. -/
def shownCode (c : Char) : List Char :=
  ['\\', 'u', '\x7b'] ++ Nat.toDigits 16 c.toNat ++ ['\x7d']

/-- A character as it is shown between double quotes. -/
def shownChar (c : Char) : List Char :=
  if c = '"' || c = '\\' then ['\\', c]
  else if c = '\t' then ['\\', 't']
  else if c = '\r' then ['\\', 'r']
  else if c = '\n' then ['\\', 'n']
  else if c = '\x00' then ['\\', '0']
  else if isSeen c then [c]
  else shownCode c

/-- A text as it is shown in a message. -/
def shown (s : String) : String :=
  .ofList ('"' :: s.toList.flatMap shownChar ++ ['"'])

end SchemaPlan.Text
