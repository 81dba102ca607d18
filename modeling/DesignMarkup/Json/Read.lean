/-
  DesignMarkup/Json/Read.lean
  ===========================
  **Reading a whole value.**  Containers may be nested up to a limit: `depth` is the
  number of containers that may still be opened.  The readers of lists and members
  take the reader of an item as an argument, so that the reader of values is a
  recursion on the depth.  `fuel` bounds the number of items and characters; the
  length of the text is enough.
-/
import DesignMarkup.Json.Numeral

namespace DesignMarkup.Json

/-- The number of containers that may stand one inside the other. -/
def maxDepth : Nat := 127

/-- Read a null, a boolean, a number or a string. -/
def scanScalar (fuel : Nat) (text : Text) : Outcome (Value × Text) :=
  match text with
  | [] => rejectPast .endInValue []
  | 'n' :: rest => do
    let (_, rest) ← scanWord ['u', 'l', 'l'] rest
    .ok (.null, rest)
  | 't' :: rest => do
    let (_, rest) ← scanWord ['r', 'u', 'e'] rest
    .ok (.boolean true, rest)
  | 'f' :: rest => do
    let (_, rest) ← scanWord ['a', 'l', 's', 'e'] rest
    .ok (.boolean false, rest)
  | '"' :: rest => do
    let (s, rest) ← scanString .keep fuel rest
    .ok (.string s, rest)
  | c :: _ =>
    if c = '-' || c.isDigit then do
      let (n, rest) ← scanNumber text
      .ok (.number n, rest)
    else rejectPast .expectedValue text

/-- What is wrong with a closing bracket or brace right after a comma.  A reader
    that only skips does not look ahead, and misses what must follow. -/
def danglingComma (mode : Mode) (skipped : Cause) : Cause :=
  match mode with
  | .keep => .trailingComma
  | .skip => skipped

/-- Read items up to the closing bracket, the first of them at the front. -/
def scanItems {α : Type} (mode : Mode) (item : Text → Outcome (α × Text)) :
    Nat → Text → Outcome (List α × Text)
  | 0, text => rejectPast .endInList text
  | fuel + 1, text => do
    let (first, rest) ← item text
    match skipSpace rest with
    | [] => rejectPast .endInList []
    | ']' :: rest => .ok ([first], rest)
    | ',' :: rest =>
      match skipSpace rest with
      | [] => rejectPast .endInValue []
      | ']' :: rest => rejectPast (danglingComma mode .expectedValue) (']' :: rest)
      | next => do
        let (more, rest) ← scanItems mode item fuel next
        .ok (first :: more, rest)
    | other => rejectPast .expectedCommaOrBracket other

/-- Read an array after its opening bracket. -/
def scanArray {α : Type} (mode : Mode) (item : Text → Outcome (α × Text)) (fuel : Nat)
    (text : Text) : Outcome (List α × Text) :=
  match skipSpace text with
  | [] => rejectPast .endInList []
  | ']' :: rest => .ok ([], rest)
  | next => scanItems mode item fuel next

/-- Read a key, the text being at its quote. -/
def scanKey (mode : Mode) (fuel : Nat) (text : Text) : Outcome (String × Text) :=
  match text with
  | '"' :: rest => scanString mode fuel rest
  | other => rejectPast .keyNotString other

/-- Read members up to the closing brace, the first of them at the front. -/
def scanMembers {α : Type} (mode : Mode) (item : Text → Outcome (α × Text)) :
    Nat → Text → Outcome (List (String × α) × Text)
  | 0, text => rejectPast .endInObject text
  | fuel + 1, text => do
    let (key, rest) ← scanKey mode (fuel + 1) text
    let (_, rest) ← scanColon rest
    let (value, rest) ← item rest
    match skipSpace rest with
    | [] => rejectPast .endInObject []
    | '}' :: rest => .ok ([(key, value)], rest)
    | ',' :: rest =>
      match skipSpace rest with
      | [] =>
        match mode with
        | .keep => rejectPast .endInValue []
        | .skip => rejectPast .endInObject []
      | '}' :: rest => rejectPast (danglingComma mode .keyNotString) ('}' :: rest)
      | next => do
        let (more, rest) ← scanMembers mode item fuel next
        .ok ((key, value) :: more, rest)
    | other => rejectPast .expectedCommaOrBrace other

/-- Read an object after its opening brace, as its members in the order written. -/
def scanObject {α : Type} (mode : Mode) (item : Text → Outcome (α × Text)) (fuel : Nat)
    (text : Text) : Outcome (List (String × α) × Text) :=
  match skipSpace text with
  | [] => rejectPast .endInObject []
  | '}' :: rest => .ok ([], rest)
  | next => scanMembers mode item fuel next

/-! ### Values -/

/-- Read a value inside which `depth` containers may still be opened. -/
def scanValue (fuel : Nat) : Nat → Text → Outcome (Value × Text)
  | 0, text =>
    match skipSpace text with
    | '[' :: rest => rejectPast .nestedTooDeep ('[' :: rest)
    | '{' :: rest => rejectPast .nestedTooDeep ('{' :: rest)
    | other => scanScalar fuel other
  | depth + 1, text =>
    match skipSpace text with
    | '[' :: rest => do
      let (items, rest) ← scanArray .keep (scanValue fuel depth) fuel rest
      .ok (.array items, rest)
    | '{' :: rest => do
      let (members, rest) ← scanObject .keep (scanValue fuel depth) fuel rest
      .ok (.object (sortMembers members), rest)
    | other => scanScalar fuel other

/-- Get past a null, a boolean, a number or a string. -/
def skipScalar (fuel : Nat) (text : Text) : Outcome (Unit × Text) :=
  match text with
  | [] => rejectPast .endInValue []
  | 'n' :: rest => scanWord ['u', 'l', 'l'] rest
  | 't' :: rest => scanWord ['r', 'u', 'e'] rest
  | 'f' :: rest => scanWord ['a', 'l', 's', 'e'] rest
  | '"' :: rest => do
    let (_, rest) ← scanString .skip fuel rest
    .ok ((), rest)
  | c :: _ =>
    if c = '-' || c.isDigit then do
      let (_, rest) ← scanNumeral .invalidNumber text
      .ok ((), rest)
    else rejectPast .expectedValue text

/-- Get past a value nested at most `depth` deep; there is no limit but the length
    of the text.  Its form is checked, not its numbers or its surrogates. -/
def skipValue (fuel : Nat) : Nat → Text → Outcome (Unit × Text)
  | 0, text => rejectPast .nestedTooDeep text
  | depth + 1, text =>
    match skipSpace text with
    | '[' :: rest => do
      let (_, rest) ← scanArray .skip (skipValue fuel depth) fuel rest
      .ok ((), rest)
    | '{' :: rest => do
      let (_, rest) ← scanObject .skip (skipValue fuel depth) fuel rest
      .ok ((), rest)
    | other => skipScalar fuel other

end DesignMarkup.Json
