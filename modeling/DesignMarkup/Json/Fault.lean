/-
  DesignMarkup/Json/Fault.lean
  ============================
  **What can be wrong with a JSON text,** and how it is said.  A `Mismatch` is about
  values: something well-formed stands where something else was expected.  A
  `Cause` is either that or an offence against the grammar.  A `ParseError` puts a
  cause at a line and a column.

  Columns count bytes, not characters: a text of one accented letter ends in
  column 2.
-/
import DesignMarkup.Json.Compact
import DesignMarkup.Text.Quoted

namespace DesignMarkup.Json

/-- What was found where something else was expected. -/
inductive Found where
  | null
  | boolean (value : Bool)
  | number (value : Number)
  | string (value : String)
  | sequence
  | map
deriving Repr

/-- The outermost layer of a value. -/
def Value.found : Value → Found
  | .null => .null
  | .boolean b => .boolean b
  | .number n => .number n
  | .string s => .string s
  | .array _ => .sequence
  | .object _ => .map

def Found.text : Found → String
  | .null => "null"
  | .boolean b => if b then "boolean `true`" else "boolean `false`"
  | .number (.integer i) => "integer `" ++ toString i ++ "`"
  | .number (.float x) => "floating point `" ++ messageText x ++ "`"
  | .string s => "string " ++ Text.quoted s
  | .sequence => "sequence"
  | .map => "map"

/-- A well-formed value that is not of the expected shape. -/
inductive Mismatch where
  /-- Something of the wrong kind. -/
  | wrongType (found : Found) (expected : String)
  /-- An object that does not have exactly one key, where a name was expected. -/
  | notSingleKey
  /-- An array that ends before the fields of a record without a default do. -/
  | tooShort (length : Nat) (record : String) (fields : Nat)
  /-- An array with more items than a record has fields. -/
  | tooLong (length : Nat)
  | missingField (name : String)
  | duplicateField (name : String)
deriving Repr

/-- `1 element`, `4 elements`. -/
def elementCount (n : Nat) : String :=
  if n = 1 then "1 element" else toString n ++ " elements"

def Mismatch.message : Mismatch → String
  | .wrongType found expected => "invalid type: " ++ found.text ++ ", expected " ++ expected
  | .notSingleKey => "invalid value: map, expected map with a single key"
  | .tooShort length record fields =>
    "invalid length " ++ toString length ++ ", expected struct " ++ record ++ " with "
      ++ elementCount fields
  | .tooLong length =>
    "invalid length " ++ toString length ++ ", expected fewer elements in array"
  | .missingField name => "missing field `" ++ name ++ "`"
  | .duplicateField name => "duplicate field `" ++ name ++ "`"

inductive Cause where
  | endInValue
  | endInList
  | endInObject
  | endInString
  | expectedValue
  | expectedWord
  | expectedColon
  | expectedCommaOrBrace
  | expectedCommaOrBracket
  | keyNotString
  | trailingComma
  | trailingCharacters
  | nestedTooDeep
  | invalidNumber
  | numberOutOfRange
  | invalidEscape
  | loneSurrogate
  | unfinishedSurrogatePair
  | controlCharacter
  | mismatch (mismatch : Mismatch)
deriving Repr

def Cause.message : Cause → String
  | .endInValue => "EOF while parsing a value"
  | .endInList => "EOF while parsing a list"
  | .endInObject => "EOF while parsing an object"
  | .endInString => "EOF while parsing a string"
  | .expectedValue => "expected value"
  | .expectedWord => "expected ident"
  | .expectedColon => "expected `:`"
  | .expectedCommaOrBrace => "expected `,` or `\x7d`"
  | .expectedCommaOrBracket => "expected `,` or `]`"
  | .keyNotString => "key must be a string"
  | .trailingComma => "trailing comma"
  | .trailingCharacters => "trailing characters"
  | .nestedTooDeep => "recursion limit exceeded"
  | .invalidNumber => "invalid number"
  | .numberOutOfRange => "number out of range"
  | .invalidEscape => "invalid escape"
  | .loneSurrogate => "lone leading surrogate in hex escape"
  | .unfinishedSurrogatePair => "unexpected end of hex escape"
  | .controlCharacter => "control character (\\u0000-\\u001F) found while parsing a string"
  | .mismatch m => m.message

/-- A place in a text: lines are counted from one, columns are bytes since the
    start of the line. -/
structure Position where
  line : Nat
  column : Nat
deriving DecidableEq, Repr

def Position.after (p : Position) (c : Char) : Position :=
  if c = '\n' then ⟨p.line + 1, 0⟩ else ⟨p.line, p.column + c.utf8Size⟩

/-- The place `bytes` further on in `text`.  It may lie inside a character. -/
def Position.advance (p : Position) : List Char → Nat → Position
  | [], _ => p
  | c :: rest, bytes =>
    if c.utf8Size ≤ bytes then (p.after c).advance rest (bytes - c.utf8Size)
    else ⟨p.line, p.column + bytes⟩

def byteCount (text : List Char) : Nat := text.foldr (fun c n => c.utf8Size + n) 0

/-- The place in `text` before its last `unread` bytes. -/
def Position.before (text : List Char) (unread : Nat) : Position :=
  Position.advance ⟨1, 0⟩ text (byteCount text - unread)

/-- A text was refused, for a cause, at a place. -/
structure ParseError where
  cause : Cause
  position : Position
deriving Repr

def ParseError.text (e : ParseError) : String := e.cause.message

def ParseError.message (e : ParseError) : String :=
  "Parse error at line " ++ toString e.position.line ++ ", column "
    ++ toString e.position.column ++ ": " ++ e.text

end DesignMarkup.Json
