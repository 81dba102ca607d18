/-
  DesignMarkup/Json/Compact.lean
  ==============================
  **The compact form of a value,** on one line and without spaces.
-/
import DesignMarkup.Json.Value
import DesignMarkup.Number.Notation

namespace DesignMarkup.Json

def hexPair (n : Nat) : List Char := [Nat.digitChar (n / 16), Nat.digitChar (n % 16)]

/-- A character as it stands inside a JSON string. -/
def escapedChar (c : Char) : List Char :=
  if c = '"' then ['\\', '"']
  else if c = '\\' then ['\\', '\\']
  else if c = '\x08' then ['\\', 'b']
  else if c = '\x0c' then ['\\', 'f']
  else if c = '\n' then ['\\', 'n']
  else if c = '\r' then ['\\', 'r']
  else if c = '\t' then ['\\', 't']
  else if c.toNat < 0x20 then ['\\', 'u', '0', '0'] ++ hexPair c.toNat
  else [c]

def stringText (text : String) : String :=
  String.ofList ('"' :: text.toList.flatMap escapedChar ++ ['"'])

def Number.text : Number → String
  | .integer i => toString i
  | .float x => messageText x

mutual

def Value.compact : Value → String
  | .null => "null"
  | .boolean true => "true"
  | .boolean false => "false"
  | .number n => n.text
  | .string s => stringText s
  | .array items => "[" ++ compactItems items ++ "]"
  | .object members => "\x7b" ++ compactMembers members ++ "\x7d"

/-- The items of an array, separated by commas. -/
def compactItems : List Value → String
  | [] => ""
  | [item] => item.compact
  | item :: rest => item.compact ++ "," ++ compactItems rest

/-- The members of an object, separated by commas. -/
def compactMembers : List (String × Value) → String
  | [] => ""
  | [(key, value)] => stringText key ++ ":" ++ value.compact
  | (key, value) :: rest => stringText key ++ ":" ++ value.compact ++ "," ++ compactMembers rest

end

end DesignMarkup.Json
