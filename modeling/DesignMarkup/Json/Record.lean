/-
  DesignMarkup/Json/Record.lean
  =============================
  **Reading a known shape straight from the text.**  Where the shape of what comes
  is known, it is read without a value in between: a text, a map, or a record whose
  fields are named.  A record is written as an object, keys that it does not know
  being skipped, or as an array with its fields in order.

  A fault of shape (`Mismatch`) has no place of its own.  It is put where the
  innermost value around it gives up: a scalar after it was read, a container that
  was opened after its closing has been tried.  `State` also carries what the reader
  remarks on, which stays when the reading fails.
-/
import DesignMarkup.Json.Read

namespace DesignMarkup.Json

/-- What is left of the text, and the remarks made so far. -/
structure State (ν : Type) where
  rest : Text
  remarks : List ν

/-- A cause, and the place of it once that is known. -/
structure Fault where
  cause : Cause
  unread : Option Nat
deriving Repr

/-- A reader that may make remarks of type `ν`. -/
abbrev Reader (ν : Type) := EStateM Fault (State ν)

/-- A record of type `σ` with fields `φ`: its name, its fields in order under their
    names, and how the value of a field is read into a record. -/
structure Schema (ν φ σ : Type) where
  name : String
  fields : List φ
  fieldName : φ → String
  fieldOf? : String → Option φ
  required : φ → Bool
  read : φ → σ → Reader ν σ

namespace Reader

variable {ν α σ φ : Type}

def scan (s : Text → Outcome (α × Text)) : Reader ν α := fun state =>
  match s state.rest with
  | .ok (a, rest) => .ok a { state with rest }
  | .error r => .error ⟨r.cause, some r.unread⟩ state

/-- Refuse one byte after the place where the reader is. -/
def rejectPast (cause : Cause) : Reader ν α := scan (Json.rejectPast cause)

/-- Refuse for a fault of shape; the place is still open. -/
def mismatch (m : Mismatch) : Reader ν α := throw ⟨.mismatch m, none⟩

def remark (remarks : List ν) : Reader ν Unit :=
  modify fun state => { state with remarks := state.remarks ++ remarks }

/-- Skip white space, and look at what is left. -/
def peek : Reader ν Text := do
  modify fun state => { state with rest := skipSpace state.rest }
  return (← get).rest

/-- Go on from `rest`. -/
def goTo (rest : Text) : Reader ν Unit := modify fun state => { state with rest }

/-- Give a fault that has no place the place where the reader stopped. -/
def placed (r : Reader ν α) : Reader ν α := fun state =>
  match r state with
  | .error ⟨cause, none⟩ state => .error ⟨cause, some (byteCount state.rest)⟩ state
  | result => result

/-- Try to close an object: what was wrong, if anything, and where that leaves us. -/
def closeObject (text : Text) : Option Rejection × Text :=
  match skipSpace text with
  | [] => (some ⟨.endInObject, 0⟩, [])
  | '}' :: rest => (none, rest)
  | ',' :: rest => (some ⟨.trailingComma, byteCount (',' :: rest) - 1⟩, ',' :: rest)
  | other => (some ⟨.trailingCharacters, byteCount other - 1⟩, other)

/-- Try to close an array. -/
def closeArray (text : Text) : Option Rejection × Text :=
  match skipSpace text with
  | [] => (some ⟨.endInList, 0⟩, [])
  | ']' :: rest => (none, rest)
  | ',' :: rest =>
    match skipSpace rest with
    | ']' :: rest => (some ⟨.trailingComma, byteCount (']' :: rest) - 1⟩, ']' :: rest)
    | other => (some ⟨.trailingCharacters, byteCount other - 1⟩, other)
  | other => (some ⟨.trailingCharacters, byteCount other - 1⟩, other)

/-- Read the inside of a container and then its closing.  The closing is tried even
    if the inside failed, and a failure of the inside comes first. -/
def closedBy (close : Text → Option Rejection × Text) (inside : Reader ν α) : Reader ν α :=
  placed fun state =>
    match inside state with
    | .ok a state =>
      match close state.rest with
      | (none, rest) => .ok a { state with rest }
      | (some r, rest) => .error ⟨r.cause, some r.unread⟩ { state with rest }
    | .error fault state => .error fault { state with rest := (close state.rest).2 }

/-- Refuse what stands here because something else was expected. -/
def refuse (fuel : Nat) (expected : String) : Reader ν α := placed do
  match ← peek with
  | '[' :: _ => mismatch (.wrongType .sequence expected)
  | '{' :: _ => mismatch (.wrongType .map expected)
  | _ =>
    let value ← scan (scanScalar fuel)
    mismatch (.wrongType value.found expected)

/-- Read null as nothing, and anything else by `r`. -/
def optional (r : Reader ν α) : Reader ν (Option α) := do
  match ← peek with
  | 'n' :: rest =>
    goTo rest
    scan (scanWord ['u', 'l', 'l'])
    return none
  | _ => return some (← r)

def string (fuel : Nat) : Reader ν String := do
  match ← peek with
  | [] => rejectPast .endInValue
  | '"' :: rest =>
    goTo rest
    scan (scanString .keep fuel)
  | _ => refuse fuel "a string"

/-- Read the next key of an object, or nothing at its end.  `first` tells whether no
    key has been read yet. -/
def nextKey (fuel : Nat) (first : Bool) : Reader ν (Option String) := do
  match ← peek with
  | [] => rejectPast .endInObject
  | '}' :: _ => return none
  | c :: rest =>
    if first then return some (← scan (scanKey .keep fuel))
    else if c = ',' then
      goTo rest
      match ← peek with
      | [] => rejectPast .endInValue
      | '}' :: _ => rejectPast .trailingComma
      | _ => return some (← scan (scanKey .keep fuel))
    else rejectPast .expectedCommaOrBrace

/-- Whether an array has a next item, the reader then being at it. -/
def nextItem (first : Bool) : Reader ν Bool := do
  match ← peek with
  | [] => rejectPast .endInList
  | ']' :: _ => return false
  | c :: rest =>
    if first then return true
    else if c = ',' then
      goTo rest
      match ← peek with
      | [] => rejectPast .endInValue
      | ']' :: _ => rejectPast .trailingComma
      | _ => return true
    else rejectPast .expectedCommaOrBracket

/-! ### Maps -/

def members (fuel : Nat) (item : Reader ν α) :
    Nat → Bool → List (String × α) → Reader ν (List (String × α))
  | 0, _, soFar => pure soFar
  | count + 1, first, soFar => do
    match ← nextKey fuel first with
    | none => return soFar
    | some key =>
      scan scanColon
      let value ← item
      members fuel item count false (insertMember key value soFar)

/-- Read an object as a map; the last of equal keys wins. -/
def map (fuel : Nat) (item : Reader ν α) : Reader ν (List (String × α)) := do
  match ← peek with
  | [] => rejectPast .endInValue
  | '{' :: rest =>
    goTo rest
    closedBy closeObject (members fuel item fuel true [])
  | _ => refuse fuel "a map"

/-! ### Records -/

variable [DecidableEq φ]

/-- Read the fields of a record from the members of an object. -/
def recordMembers (fuel : Nat) (schema : Schema ν φ σ) :
    Nat → Bool → List φ → σ → Reader ν σ
  | 0, _, _, record => pure record
  | count + 1, first, seen, record => do
    match ← nextKey fuel first with
    | none =>
      match schema.fields.find? fun f => schema.required f && !seen.contains f with
      | some f => mismatch (.missingField (schema.fieldName f))
      | none => return record
    | some key =>
      match schema.fieldOf? key with
      | none =>
        scan scanColon
        scan (skipValue fuel fuel)
        recordMembers fuel schema count false seen record
      | some f =>
        if seen.contains f then mismatch (.duplicateField (schema.fieldName f))
        else
          scan scanColon
          let record ← schema.read f record
          recordMembers fuel schema count false (f :: seen) record

/-- Read fields from the items of an array.  `index` items have been read. -/
def recordItems (schema : Schema ν φ σ) : List φ → Nat → σ → Reader ν σ
  | [], _, record => pure record
  | f :: rest, index, record => do
    if ← nextItem (index == 0) then
      let record ← schema.read f record
      recordItems schema rest (index + 1) record
    else
      match (f :: rest).find? schema.required with
      | some _ => mismatch (.tooShort index schema.name schema.fields.length)
      | none => return record

/-- Read a record, starting from `record` for the fields that are absent. -/
def record (fuel : Nat) (schema : Schema ν φ σ) (record : σ) : Reader ν σ := do
  match ← peek with
  | [] => rejectPast .endInValue
  | '[' :: rest =>
    goTo rest
    closedBy closeArray (recordItems schema schema.fields 0 record)
  | '{' :: rest =>
    goTo rest
    closedBy closeObject (recordMembers fuel schema fuel true [] record)
  | _ => refuse fuel ("struct " ++ schema.name)

/-- Read a whole text, and give the remarks made on the way. -/
def run (r : Nat → Reader ν α) (text : String) : Except ParseError α × List ν :=
  let chars := text.toList
  let fail (cause : Cause) (unread : Nat) : Except ParseError α :=
    .error ⟨cause, Position.before chars unread⟩
  match r (chars.length + 1) ⟨chars, []⟩ with
  | .error fault state => (fail fault.cause (fault.unread.getD (byteCount state.rest)), state.remarks)
  | .ok a state =>
    match skipSpace state.rest with
    | [] => (.ok a, state.remarks)
    | other => (fail .trailingCharacters (byteCount other - 1), state.remarks)

end Reader

end DesignMarkup.Json
