/-
  DesignMarkup/Text/Quoted.lean
  =============================
  **A text quoted in a message.**  Quotes and backslashes get a backslash, the
  common control characters their letter, and every other hidden character its
  number in braces, so that the quoted form is one visible line.
-/
import DesignMarkup.Text.Hidden

namespace DesignMarkup.Text

def hexNumeral (n : Nat) : List Char := Nat.toDigits 16 n

/-- A character as it stands inside a quoted text. -/
def quotedChar (c : Char) : List Char :=
  if c = '\x00' then ['\\', '0']
  else if c = '\t' then ['\\', 't']
  else if c = '\r' then ['\\', 'r']
  else if c = '\n' then ['\\', 'n']
  else if c = '\\' then ['\\', '\\']
  else if c = '"' then ['\\', '"']
  else if isHidden c then ['\\', 'u', '{'] ++ hexNumeral c.toNat ++ ['}']
  else [c]

def quoted (text : String) : String :=
  String.ofList ('"' :: text.toList.flatMap quotedChar ++ ['"'])

end DesignMarkup.Text
