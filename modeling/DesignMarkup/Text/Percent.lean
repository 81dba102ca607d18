/-
  DesignMarkup/Text/Percent.lean
  ==============================
  **Percent encoding.**  Every byte of a text outside the unreserved set is written
  as a percent sign and two hexadecimal digits.  Reading is lenient: a percent sign
  that two hexadecimal digits do not follow stands for itself, so reading fails only
  when the bytes it yields are not a text.
-/

namespace DesignMarkup.Text.Percent

/-- Letters, digits and `-._~`, which an encoder leaves alone. -/
def isUnreserved (c : Char) : Bool :=
  c.isAlphanum || c == '-' || c == '.' || c == '_' || c == '~'

def hexDigit (n : Nat) : Char :=
  if n < 10 then Char.ofNat (48 + n) else Char.ofNat (55 + n)

/-- The value of a hexadecimal digit of either case. -/
def hexValue? (byte : UInt8) : Option UInt8 :=
  if 48 ≤ byte ∧ byte ≤ 57 then some (byte - 48)
  else if 65 ≤ byte ∧ byte ≤ 70 then some (byte - 55)
  else if 97 ≤ byte ∧ byte ≤ 102 then some (byte - 87)
  else none

def escapeByte (byte : UInt8) : List Char :=
  ['%', hexDigit (byte.toNat / 16), hexDigit (byte.toNat % 16)]

def encodeByte (byte : UInt8) : List Char :=
  let c := Char.ofNat byte.toNat
  if byte < 128 && isUnreserved c then [c] else escapeByte byte

def encode (text : String) : String :=
  String.ofList (text.toUTF8.toList.flatMap encodeByte)

/-- The bytes that an encoded sequence of bytes stands for. -/
def decodeBytes : List UInt8 → List UInt8
  | 37 :: high :: low :: rest =>
    match hexValue? high, hexValue? low with
    | some h, some l => (h * 16 + l) :: decodeBytes rest
    | _, _ => 37 :: decodeBytes (high :: low :: rest)
  | byte :: rest => byte :: decodeBytes rest
  | [] => []

/-- The text that an encoded text stands for, unless its bytes are no text. -/
def decode? (text : String) : Option String :=
  String.fromUTF8? ⟨(decodeBytes text.toUTF8.toList).toArray⟩

end DesignMarkup.Text.Percent
