/-
  DesignMarkup/Text/Utf8.lean
  ===========================
  **Text from bytes.**  Bytes that are UTF-8 are the text that they encode.  In others,
  each longest run of bytes that begins a character and does not end it, and each byte
  that can begin none, stands for one replacement character.
-/

namespace DesignMarkup.Text

def replacement : Char := '\ufffd'

/-- A character of which some bytes are read: how many are to come, between which bounds
    the next one lies, and the number that was read so far. -/
structure Begun where
  missing : Nat
  low : UInt8
  high : UInt8
  code : Nat

/-- The character that a byte begins, if it is the first of several. -/
def Begun.ofByte? (byte : UInt8) : Option Begun :=
  if 0xC2 ≤ byte ∧ byte ≤ 0xDF then some ⟨1, 0x80, 0xBF, byte.toNat - 0xC0⟩
  else if byte = 0xE0 then some ⟨2, 0xA0, 0xBF, 0x0⟩
  else if byte = 0xED then some ⟨2, 0x80, 0x9F, 0xD⟩
  else if 0xE1 ≤ byte ∧ byte ≤ 0xEF then some ⟨2, 0x80, 0xBF, byte.toNat - 0xE0⟩
  else if byte = 0xF0 then some ⟨3, 0x90, 0xBF, 0x0⟩
  else if 0xF1 ≤ byte ∧ byte ≤ 0xF3 then some ⟨3, 0x80, 0xBF, byte.toNat - 0xF0⟩
  else if byte = 0xF4 then some ⟨3, 0x80, 0x8F, 0x4⟩
  else none

/-- Read a byte where no character is begun. -/
def readFirst (byte : UInt8) : List Char × Option Begun :=
  if byte < 0x80 then ([Char.ofNat byte.toNat], none)
  else
    match Begun.ofByte? byte with
    | some begun => ([], some begun)
    | none => ([replacement], none)

/-- Read one more byte.  A character that it does not go on with is given up before it. -/
def readNext (begun? : Option Begun) (byte : UInt8) : List Char × Option Begun :=
  match begun? with
  | none => readFirst byte
  | some begun =>
    if begun.low ≤ byte ∧ byte ≤ begun.high then
      let code := begun.code * 64 + (byte.toNat - 0x80)
      if begun.missing = 1 then ([Char.ofNat code], none)
      else ([], some ⟨begun.missing - 1, 0x80, 0xBF, code⟩)
    else (replacement :: (readFirst byte).1, (readFirst byte).2)

def repairedFrom (begun? : Option Begun) : List UInt8 → List Char
  | [] => if begun?.isSome then [replacement] else []
  | byte :: rest => (readNext begun? byte).1 ++ repairedFrom (readNext begun? byte).2 rest

/-- The text of any bytes. -/
def ofBytes (bytes : ByteArray) : String :=
  (String.fromUTF8? bytes).getD (String.ofList (repairedFrom none bytes.toList))

end DesignMarkup.Text
