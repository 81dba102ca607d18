/-
  DesignMarkup/Json/Scan.lean
  ===========================
  **Reading from the front of a text.**  A scan takes what is left of the text and
  gives a result together with what is left after it.  A refusal says how many
  bytes were unread at the place that the error is about; the line and the column
  follow from that number and the whole text (`Position.before`).

  Only two places occur: right here, with nothing of what is left consumed, and
  one byte further, past the byte that gave offence.
-/
import DesignMarkup.Json.Fault

namespace DesignMarkup.Json

abbrev Text := List Char

/-- A refusal, at the place before the last `unread` bytes of the text. -/
structure Rejection where
  cause : Cause
  unread : Nat
deriving Repr

/-- The outcome of a scan.  A scan for an `α` has the outcome `Outcome (α × Text)`:
    the result and what is left after it. -/
abbrev Outcome := Except Rejection

/-- Refuse at the place where `text` begins. -/
def rejectAt {α : Type} (cause : Cause) (text : Text) : Outcome α :=
  .error ⟨cause, byteCount text⟩

/-- Refuse one byte after the place where `text` begins, or at the end of the text. -/
def rejectPast {α : Type} (cause : Cause) (text : Text) : Outcome α :=
  .error ⟨cause, byteCount text - 1⟩

/-- The four characters that may stand between tokens. -/
def isSpace (c : Char) : Bool := c == ' ' || c == '\n' || c == '\t' || c == '\r'

def skipSpace (text : Text) : Text := text.dropWhile isSpace

/-- Read the rest of a word. -/
def scanWord : List Char → Text → Outcome (Unit × Text)
  | [], text => .ok ((), text)
  | _ :: _, [] => rejectAt .endInValue []
  | expected :: word, c :: rest =>
    if c = expected then scanWord word rest else rejectPast .expectedWord (c :: rest)

/-- Read the colon between a key and its value. -/
def scanColon (text : Text) : Outcome (Unit × Text) :=
  match skipSpace text with
  | [] => rejectPast .endInObject []
  | ':' :: rest => .ok ((), rest)
  | other => rejectPast .expectedColon other

/-! ### Strings -/

/-- Whether a string is read for its characters, or only to get past it. -/
inductive Mode where
  | keep
  | skip
deriving DecidableEq, Repr

/-- The value of a hexadecimal digit of either case. -/
def hexDigit? (c : Char) : Option Nat :=
  if c.isDigit then some (c.toNat - 48)
  else if 'a' ≤ c && c ≤ 'f' then some (c.toNat - 87)
  else if 'A' ≤ c && c ≤ 'F' then some (c.toNat - 55)
  else none

def hexUnit? (a b c d : Char) : Option Nat := do
  let a ← hexDigit? a
  let b ← hexDigit? b
  let c ← hexDigit? c
  let d ← hexDigit? d
  return ((a * 16 + b) * 16 + c) * 16 + d

/-- Read four hexadecimal digits.  Four bytes count as read if there are as many. -/
def scanUnit (text : Text) : Outcome (Nat × Text) :=
  if byteCount (text.take 4) < 4 then .error ⟨.endInString, 0⟩
  else
    match text with
    | a :: b :: c :: d :: rest =>
      match hexUnit? a b c d with
      | some unit => .ok (unit, rest)
      | none => .error ⟨.invalidEscape, byteCount text - 4⟩
    | _ => .error ⟨.invalidEscape, byteCount text - 4⟩

def isLeading (unit : Nat) : Bool := 0xD800 ≤ unit && unit ≤ 0xDBFF

def isTrailing (unit : Nat) : Bool := 0xDC00 ≤ unit && unit ≤ 0xDFFF

/-- The character that a surrogate pair stands for. -/
def pairedChar (leading trailing : Nat) : Char :=
  Char.ofNat ((leading - 0xD800) * 0x400 + (trailing - 0xDC00) + 0x10000)

def scanTrailing (leading : Nat) (text : Text) : Outcome (Char × Text) :=
  match text with
  | [] => rejectAt .endInString []
  | '\\' :: afterSlash =>
    match afterSlash with
    | [] => rejectAt .endInString []
    | 'u' :: digits => do
      let (unit, rest) ← scanUnit digits
      if isTrailing unit then .ok (pairedChar leading unit, rest)
      else rejectAt .loneSurrogate rest
    | other => rejectPast .unfinishedSurrogatePair other
  | other => rejectPast .unfinishedSurrogatePair other

/-- Read the number of a character, and the other half of a surrogate pair.  When
    the string is only skipped, halves need no partner. -/
def scanNumbered (mode : Mode) (text : Text) : Outcome (Char × Text) := do
  let (unit, rest) ← scanUnit text
  match mode with
  | .skip => .ok (Char.ofNat unit, rest)
  | .keep =>
    if isTrailing unit then rejectAt .loneSurrogate rest
    else if isLeading unit then scanTrailing unit rest
    else .ok (Char.ofNat unit, rest)

/-- The character that a letter after a backslash stands for. -/
def namedEscape? (c : Char) : Option Char :=
  match c with
  | '"' => some '"'
  | '\\' => some '\\'
  | '/' => some '/'
  | 'b' => some '\x08'
  | 'f' => some '\x0c'
  | 'n' => some '\n'
  | 'r' => some '\r'
  | 't' => some '\t'
  | _ => none

/-- Read what follows a backslash. -/
def scanEscape (mode : Mode) (text : Text) : Outcome (Char × Text) :=
  match text with
  | [] => rejectAt .endInString []
  | 'u' :: rest => scanNumbered mode rest
  | c :: rest =>
    match namedEscape? c with
    | some meant => .ok (meant, rest)
    | none => rejectPast .invalidEscape text

/-- Read the characters of a string and its closing quote.  `fuel` bounds the
    number of characters. -/
def scanStringBody (mode : Mode) : Nat → Text → Outcome (List Char × Text)
  | 0, text => rejectAt .endInString text
  | fuel + 1, text =>
    match text with
    | [] => rejectAt .endInString []
    | '"' :: rest => .ok ([], rest)
    | '\\' :: rest => do
      let (c, rest) ← scanEscape mode rest
      let (more, rest) ← scanStringBody mode fuel rest
      .ok (c :: more, rest)
    | c :: rest =>
      if c.toNat < 0x20 then
        match mode with
        | .keep => rejectPast .controlCharacter text
        | .skip => rejectAt .controlCharacter text
      else do
        let (more, rest) ← scanStringBody mode fuel rest
        .ok (c :: more, rest)

/-- Read a string after its opening quote. -/
def scanString (mode : Mode) (fuel : Nat) (text : Text) : Outcome (String × Text) := do
  let (chars, rest) ← scanStringBody mode fuel text
  .ok (String.ofList chars, rest)

end DesignMarkup.Json
