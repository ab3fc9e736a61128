import FormPage.Text.Ascii
import FormPage.Text.Invisible

/-!
Quoted texts, as messages show them: in double quotes, with a backslash in front of quotes and
backslashes, and with every character that leaves no mark written by name or number.
-/

namespace FormPage.Text

/-- One character of a quoted text. -/
def showChar (c : Char) : List Char :=
  if c = '\x00' then ['\\', '0']
  else if c = '\t' then ['\\', 't']
  else if c = '\r' then ['\\', 'r']
  else if c = '\n' then ['\\', 'n']
  else if c = '\\' then ['\\', '\\']
  else if c = '"' then ['\\', '"']
  else if isInvisible c then '\\' :: 'u' :: '\x7b' :: lowerHex 1 c.toNat ++ ['\x7d']
  else [c]

/-- A text in quotes. -/
def quoted (s : String) : String := String.ofList ('"' :: s.toList.flatMap showChar ++ ['"'])

end FormPage.Text
