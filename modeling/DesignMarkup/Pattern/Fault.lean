/-
  DesignMarkup/Pattern/Fault.lean
  ===============================
  **What can be wrong with a pattern,** and how it is pointed out.  A `Fault` is a
  mistake and the stretch of the pattern that it is about; a mistake that clashes
  with something earlier names that stretch as well.

  `Fault.report` writes the pattern out with carets under the stretches.  A pattern
  of several lines gets line numbers, and a stretch over several lines is told in
  words.
-/

namespace DesignMarkup.Pattern

/-! ### Places -/

/-- A place in a pattern: the characters before it, its line and its column. -/
structure Mark where
  offset : Nat
  line : Nat
  column : Nat
deriving DecidableEq, Repr

def Mark.origin : Mark := ⟨0, 1, 1⟩

/-- The place after a further character. -/
def Mark.after (m : Mark) (c : Char) : Mark :=
  if c = '\n' then ⟨m.offset + 1, m.line + 1, 1⟩ else ⟨m.offset + 1, m.line, m.column + 1⟩

/-- A stretch of a pattern, up to but not including `stop`. -/
structure Span where
  start : Mark
  stop : Mark
deriving DecidableEq, Repr

def Span.isOneLine (s : Span) : Bool := s.start.line == s.stop.line

/-! ### Mistakes -/

inductive Mistake where
  | escapeInClass
  | rangeBackward
  | rangeOfSets
  | classUnclosed
  | decimalInvalid
  | hexEmpty
  | hexNoCharacter
  | hexInvalidDigit
  | escapeAtEnd
  | escapeUnknown
  | negationDangling
  | flagTwice
  | negationTwice
  | flagsAtEnd
  | flagUnknown
  | nameTwice
  | nameEmpty
  | nameInvalid
  | nameUnclosed
  | groupUnclosed
  | groupUnopened
  | nestedTooDeep (limit : Nat)
  | countBackward
  | countEmpty
  | countUnclosed
  | nothingToRepeat
  | boundaryUnclosed
  | boundaryUnknown
  | boundaryAtEnd
  | propertyInvalid
  | backreference
  | lookAround
  | propertyNotAllowed
  | splitsCharacters
  | propertyUnknown
  | propertyValueUnknown
  | shorthandUnavailable
  | caseUnavailable
deriving DecidableEq, Repr

def Mistake.text : Mistake → String
  | .escapeInClass => "invalid escape sequence found in character class"
  | .rangeBackward => "invalid character class range, the start must be <= the end"
  | .rangeOfSets => "invalid range boundary, must be a literal"
  | .classUnclosed => "unclosed character class"
  | .decimalInvalid => "decimal literal invalid"
  | .hexEmpty => "hexadecimal literal empty"
  | .hexNoCharacter => "hexadecimal literal is not a Unicode scalar value"
  | .hexInvalidDigit => "invalid hexadecimal digit"
  | .escapeAtEnd => "incomplete escape sequence, reached end of pattern prematurely"
  | .escapeUnknown => "unrecognized escape sequence"
  | .negationDangling => "dangling flag negation operator"
  | .flagTwice => "duplicate flag"
  | .negationTwice => "flag negation operator repeated"
  | .flagsAtEnd => "expected flag but got end of regex"
  | .flagUnknown => "unrecognized flag"
  | .nameTwice => "duplicate capture group name"
  | .nameEmpty => "empty capture group name"
  | .nameInvalid => "invalid capture group character"
  | .nameUnclosed => "unclosed capture group name"
  | .groupUnclosed => "unclosed group"
  | .groupUnopened => "unopened group"
  | .nestedTooDeep limit =>
    "exceed the maximum number of nested parentheses/brackets (" ++ toString limit ++ ")"
  | .countBackward => "invalid repetition count range, the start must be <= the end"
  | .countEmpty => "repetition quantifier expects a valid decimal"
  | .countUnclosed => "unclosed counted repetition"
  | .nothingToRepeat => "repetition operator missing expression"
  | .boundaryUnclosed =>
    "special word boundary assertion is either unclosed or contains an invalid character"
  | .boundaryUnknown =>
    "unrecognized special word boundary assertion, valid choices are: start, end, start-half or end-half"
  | .boundaryAtEnd =>
    "found either the beginning of a special word boundary or a bounded repetition on a \\b with an opening brace, but no closing brace"
  | .propertyInvalid => "invalid Unicode character class"
  | .backreference => "backreferences are not supported"
  | .lookAround => "look-around, including look-ahead and look-behind, is not supported"
  | .propertyNotAllowed => "Unicode not allowed here"
  | .splitsCharacters => "pattern can match invalid UTF-8"
  | .propertyUnknown => "Unicode property not found"
  | .propertyValueUnknown => "Unicode property value not found"
  | .shorthandUnavailable =>
    "Unicode-aware Perl class not found (make sure the unicode-perl feature is enabled)"
  | .caseUnavailable =>
    "Unicode-aware case insensitivity matching is not available (make sure the unicode-case feature is enabled)"

/-- A mistake, what it is about, and what came before that it clashes with. -/
structure Fault where
  mistake : Mistake
  span : Span
  earlier : Option Span := none
deriving DecidableEq, Repr

/-! ### Pointing it out -/

/-- The lines of a text, without the characters that end them. -/
def linesOf : List Char → List (List Char)
  | [] => []
  | '\n' :: rest => [] :: linesOf rest
  | '\r' :: '\n' :: rest => [] :: linesOf rest
  | c :: rest =>
    match linesOf rest with
    | [] => [[c]]
    | line :: more => (c :: line) :: more

/-- Carets under stretches of a line, each at least one wide.  `column` columns have
    been written. -/
def carets (column : Nat) : List Span → List Char
  | [] => []
  | s :: rest =>
    let indent := s.start.column - 1 - column
    let width := max 1 (s.stop.column - s.start.column)
    List.replicate indent ' ' ++ List.replicate width '^' ++ carets (column + indent + width) rest

def rightAligned (width n : Nat) : String :=
  let numeral := toString n
  String.ofList (List.replicate (width - numeral.length) ' ') ++ numeral

/-- A line after its margin, and the carets under it if there are any. -/
def annotatedLine (margin : String) (line : List Char) (spans : List Span) : String :=
  margin ++ String.ofList line ++ "\n"
    ++ if spans.isEmpty then ""
      else
        String.ofList (List.replicate margin.length ' ' ++ carets 0 spans) ++ "\n"

/-- The lines of a pattern from number `n` on, with carets under the stretches. -/
def annotatedLines (margin : Nat → String) (spans : List Span) :
    Nat → List (List Char) → String
  | _, [] => ""
  | n, line :: rest =>
    annotatedLine (margin n) line (spans.filter fun s => s.start.line == n)
      ++ annotatedLines margin spans (n + 1) rest

def Span.words (s : Span) : String :=
  "on line " ++ toString s.start.line ++ " (column " ++ toString s.start.column
    ++ ") through line " ++ toString s.stop.line ++ " (column " ++ toString (s.stop.column - 1) ++ ")"

namespace Fault

/-- The stretches that a fault is about, in order. -/
def spans (f : Fault) : List Span := f.earlier.toList ++ [f.span]

/-- The fault pointed out in a pattern of one line. -/
def reportInLine (pattern : String) (f : Fault) : String :=
  "regex parse error:\n"
    ++ annotatedLines (fun _ => "    ") (f.spans.filter Span.isOneLine) 1 (linesOf pattern.toList)
    ++ "error: " ++ f.mistake.text

/-- The fault pointed out in a pattern of several lines. -/
def reportInLines (pattern : String) (f : Fault) : String :=
  let lineCount := pattern.toList.count '\n' + 1
  let width := (toString lineCount).length
  let divider := String.ofList (List.replicate 79 '~') ++ "\n"
  let long := f.spans.filter fun s => !s.isOneLine
  "regex parse error:\n" ++ divider
    ++ annotatedLines (fun n => rightAligned width n ++ ": ") (f.spans.filter Span.isOneLine) 1
      (linesOf pattern.toList)
    ++ divider
    ++ (if long.isEmpty then "" else "\n".intercalate (long.map Span.words) ++ "\n")
    ++ "error: " ++ f.mistake.text

def report (pattern : String) (f : Fault) : String :=
  if pattern.toList.contains '\n' then f.reportInLines pattern else f.reportInLine pattern

end Fault

end DesignMarkup.Pattern
