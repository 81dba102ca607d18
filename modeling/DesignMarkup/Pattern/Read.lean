/-
  DesignMarkup/Pattern/Read.lean
  ==============================
  **Reading a pattern.**  Everything is read from the front, with one exception: a
  named class in brackets, which is a bracket of its own should it not turn out to
  be one.  After the flag for spacing, white space and comments between the parts of
  a pattern are passed over.

  Groups and brackets may be nested; `fuel` bounds the number of their parts, and
  one more than the length of the pattern is enough.
-/
import DesignMarkup.Pattern.Tree
import DesignMarkup.Text.Blank

namespace DesignMarkup.Pattern

/-- What is left to read, the place where it starts, whether spacing is passed over,
    and the names given to groups so far. -/
structure State where
  rest : List Char
  mark : Mark
  spacing : Bool
  names : List (String × Span)

abbrev Reader := EStateM Fault State

/-- White space and comments passed over; `comment` says whether a comment has begun. -/
def dropSpacing (comment : Bool) : List Char → Mark → List Char × Mark
  | [], m => ([], m)
  | c :: rest, m =>
    if comment then dropSpacing (c != '\n') rest (m.after c)
    else if Text.isBlank c then dropSpacing false rest (m.after c)
    else if c = '#' then dropSpacing true rest (m.after c)
    else (c :: rest, m)

namespace Reader

def peek : Reader (Option Char) := return (← get).rest.head?

def mark : Reader Mark := return (← get).mark

def spanFrom (start : Mark) : Reader Span := return ⟨start, ← mark⟩

def spanHere : Reader Span := do spanFrom (← mark)

def spanNext : Reader Span := do
  let s ← get
  match s.rest with
  | [] => return ⟨s.mark, s.mark⟩
  | c :: _ => return ⟨s.mark, s.mark.after c⟩

def skip : Reader Unit :=
  modify fun s =>
    match s.rest with
    | [] => s
    | c :: rest => { s with rest, mark := s.mark.after c }

/-- Get past spacing. -/
def skipSpacing : Reader Unit :=
  modify fun s =>
    if s.spacing then
      let (rest, mark) := dropSpacing false s.rest s.mark
      { s with rest, mark }
    else s

/-- Get past the character at the front and the spacing after it. -/
def skipSpaced : Reader Unit := do
  skip
  skipSpacing

/-- Get past `text` if it stands here. -/
def skipText (text : String) : Reader Bool := do
  if text.toList.isPrefixOf (← get).rest then
    text.toList.forM fun _ => skip
    return true
  else return false

def refuse {α : Type} (mistake : Mistake) (span : Span) : Reader α := throw ⟨mistake, span, none⟩

/-- Refuse for a mistake in the stretch from `start` to here. -/
def refuseFrom {α : Type} (mistake : Mistake) (start : Mark) : Reader α := do
  refuse mistake (← spanFrom start)

def refuseHere {α : Type} (mistake : Mistake) : Reader α := do refuse mistake (← spanHere)

def refuseNext {α : Type} (mistake : Mistake) : Reader α := do refuse mistake (← spanNext)

def atEnd : Reader Bool := return (← get).rest.isEmpty

/-- Characters with a property, spacing between them being passed over. -/
def takeSpaced (p : Char → Bool) : Nat → Reader (List Char)
  | 0 => return []
  | fuel + 1 => do
    match ← peek with
    | some c =>
      if p c then
        skipSpaced
        return c :: (← takeSpaced p fuel)
      else return []
    | none => return []

/-- All characters with a property from here on. -/
def takeAll (p : Char → Bool) : Reader (List Char) := do takeSpaced p (← get).rest.length

/-! ### Escapes -/

/-- The value of a hexadecimal digit of either case. -/
def hexDigit? (c : Char) : Option Nat :=
  if c.isDigit then some (c.toNat - 48)
  else if 'a' ≤ c && c ≤ 'f' then some (c.toNat - 87)
  else if 'A' ≤ c && c ≤ 'F' then some (c.toNat - 55)
  else none

/-- The character with a number in hexadecimal digits. -/
def hexChar? (digits : List Char) : Option Char :=
  let n := digits.foldl (fun n c => n * 16 + (hexDigit? c).getD 0) 0
  if n.isValidChar then some (Char.ofNat n) else none

/-- Exactly `count` hexadecimal digits, the first of them at the front. -/
def hexDigits : Nat → Reader (List Char)
  | 0 => return []
  | count + 1 => do
    match ← peek with
    | none => refuseHere .escapeAtEnd
    | some c =>
      if (hexDigit? c).isNone then refuseNext .hexInvalidDigit
      else
        skipSpaced
        return c :: (← hexDigits count)

/-- The character that hexadecimal digits stand for.  `isByte` says whether they are
    two without braces. -/
def literalOfHex (digits : List Char) (isByte : Bool) (escape start stop : Mark) : Reader Literal := do
  match hexChar? digits with
  | some char => return ⟨← spanFrom escape, char, isByte⟩
  | none => refuse .hexNoCharacter ⟨start, stop⟩

/-- Digits up to a closing brace, from the opening one on. -/
def bracedHex (escape : Mark) : Reader Literal := do
  let brace ← mark
  let start := (← spanNext).stop
  skipSpaced
  let digits ← takeAll fun c => (hexDigit? c).isSome
  match ← peek with
  | none => refuseFrom .escapeAtEnd brace
  | some c =>
    if c ≠ '}' then refuseNext .hexInvalidDigit
    else
      let stop ← mark
      skipSpaced
      if digits.isEmpty then refuseFrom .hexEmpty brace
      else literalOfHex digits false escape start stop

/-- The character with a number, from the letter on that says how many digits there
    are without braces. -/
def hexEscape (escape : Mark) (count : Nat) : Reader Literal := do
  skipSpaced
  match ← peek with
  | none => refuseHere .escapeAtEnd
  | some '{' => bracedHex escape
  | some _ =>
    let start ← mark
    let digits ← hexDigits count
    literalOfHex digits (count == 2) escape start (← mark)

/-- Whether a text occurs in another. -/
def isInfix (part : List Char) : List Char → Bool
  | [] => part.isEmpty
  | c :: rest => part.isPrefixOf (c :: rest) || isInfix part rest

def propertyOf (name : List Char) : Property :=
  if name.contains ':' || name.contains '=' || isInfix ['!', '='] name then .valued
  else .named (String.ofList name)

/-- A property of characters, from its letter on. -/
def propertyEscape (escape : Mark) (negated : Bool) : Reader Tree := do
  skipSpaced
  match ← peek with
  | none => refuseHere .escapeAtEnd
  | some '{' =>
    skipSpaced
    let name ← takeAll (· ≠ '}')
    if ← atEnd then refuseHere .escapeAtEnd
    else
      skip
      return .property (← spanFrom escape) negated (propertyOf name)
  | some c =>
    if c = '\\' then refuseNext .propertyInvalid
    else
      skipSpaced
      return .property (← spanFrom escape) negated (.named (String.ofList [c]))

def namedBoundary? : String → Option Assertion
  | "start" => some .wordStart
  | "end" => some .wordEnd
  | "start-half" => some .wordStartHalf
  | "end-half" => some .wordEndHalf
  | _ => none

/-- The name of a word boundary in braces.  What does not start like a name is left
    to be read as a count. -/
def boundaryName (escape : Mark) : Reader Assertion := do
  let before ← get
  let isNameChar (c : Char) : Bool := c.isAlpha || c == '-'
  skipSpaced
  match ← peek with
  | none => refuseFrom .boundaryAtEnd escape
  | some c =>
    if !isNameChar c then
      set before
      return .boundary
    else
      let start ← mark
      let name ← takeAll isNameChar
      if (← peek) ≠ some '}' then refuseFrom .boundaryUnclosed before.mark
      else
        let span ← spanFrom start
        skip
        match namedBoundary? (String.ofList name) with
        | some a => return a
        | none => refuse .boundaryUnknown span

/-- Whether a character can stand after a backslash for itself. -/
def isEscapable (c : Char) : Bool :=
  c.toNat < 0x80 && !c.isAlphanum && c != '<' && c != '>'

/-- The control character that a letter stands for. -/
def control? : Char → Option Char
  | 'a' => some '\x07'
  | 'f' => some '\x0c'
  | 't' => some '\t'
  | 'n' => some '\n'
  | 'r' => some '\r'
  | 'v' => some '\x0b'
  | _ => none

/-- The class that a letter stands for, and whether it is negated. -/
def shorthand? : Char → Option (Shorthand × Bool)
  | 'd' => some (.digit, false)
  | 's' => some (.space, false)
  | 'w' => some (.word, false)
  | 'D' => some (.digit, true)
  | 'S' => some (.space, true)
  | 'W' => some (.word, true)
  | _ => none

/-- What a character after a backslash means that takes nothing after it. -/
def shortEscape (escape : Mark) (c : Char) : Reader Tree := do
  skip
  let span ← spanFrom escape
  match shorthand? c with
  | some (s, negated) => return .shorthand span negated s
  | none =>
    if isEscapable c then return .literal ⟨span, c, false⟩
    else
      match control? c with
      | some meant => return .literal ⟨span, meant, false⟩
      | none =>
        match c with
        | 'A' => return .assertion span .textStart
        | 'z' => return .assertion span .textEnd
        | 'B' => return .assertion span .noBoundary
        | '<' => return .assertion span .wordStart
        | '>' => return .assertion span .wordEnd
        | 'b' =>
          if (← peek) = some '{' then
            let a ← boundaryName escape
            return .assertion (← spanFrom escape) a
          else return .assertion span .boundary
        | _ => refuse .escapeUnknown span

/-- An escape, from its backslash on. -/
def escaped : Reader Tree := do
  let start ← mark
  skip
  match ← peek with
  | none => refuseFrom .escapeAtEnd start
  | some c =>
    if c.isDigit then refuse .backreference ⟨start, (← spanNext).stop⟩
    else
      match c with
      | 'x' => return .literal (← hexEscape start 2)
      | 'u' => return .literal (← hexEscape start 4)
      | 'U' => return .literal (← hexEscape start 8)
      | 'p' => propertyEscape start false
      | 'P' => propertyEscape start true
      | c => shortEscape start c

def verbatim (c : Char) : Reader Tree := do
  let span ← spanNext
  skip
  return .literal ⟨span, c, false⟩

/-- A part that is neither a group, a bracket nor a repetition. -/
def primitive (c : Char) : Reader Tree := do
  let span ← spanNext
  match c with
  | '\\' => escaped
  | '.' => skip; return .dot span
  | '^' => skip; return .assertion span .lineStart
  | '$' => skip; return .assertion span .lineEnd
  | c => verbatim c

/-! ### Classes -/

/-- The items of a class so far, the last one first, and where they start if there
    are none. -/
structure Items where
  start : Mark
  items : List ClassTree

def Items.push (u : Items) (item : ClassTree) : Items := { u with items := item :: u.items }

def Items.tree (u : Items) : ClassTree :=
  match u.items with
  | [] => .nothing ⟨u.start, u.start⟩
  | [item] => item
  | last :: _ =>
    let first := u.items.getLast?.getD last
    .union ⟨first.span.start, last.span.stop⟩ u.items.reverse

/-- An item that is read like a part outside of a class. -/
def classItem : Tree → Reader ClassTree
  | .literal l => return .literal l
  | .shorthand s negated k => return .shorthand s negated k
  | .property s negated p => return .property s negated p
  | other => refuse .escapeInClass other.span

/-- The end of a range. -/
def rangeEnd : Tree → Reader Literal
  | .literal l => return l
  | other => refuse .rangeOfSets other.span

def classPrimitive : Reader Tree := do
  match ← peek with
  | some '\\' => escaped
  | some c => verbatim c
  | none => return .nothing (← spanHere)

/-- The character after the one at the front, spacing aside.  A comment counts as
    spacing only up to the first of its characters. -/
def peekSecond : Reader (Option Char) := do
  let s ← get
  let next := s.rest.drop 1
  if !s.spacing then return next.head?
  else
    let afterBlank := next.dropWhile Text.isBlank
    let found :=
      match afterBlank with
      | '#' :: comment => comment.dropWhile Text.isBlank
      | other => other
    return found.head?.or next.head?

/-- An item of a class or a range.  `opening` is the start of the class. -/
def classRange (opening : Span) : Reader ClassTree := do
  let first ← classPrimitive
  skipSpacing
  if ← atEnd then refuse .classUnclosed opening
  else
    let second ← peekSecond
    if (← peek) ≠ some '-' || second = some ']' || second = some '-' then classItem first
    else
      skipSpaced
      if ← atEnd then refuse .classUnclosed opening
      else
        let last ← classPrimitive
        let span : Span := ⟨first.span.start, last.span.stop⟩
        let low ← rangeEnd first
        let high ← rangeEnd last
        if low.char ≤ high.char then return .range span low high
        else refuse .rangeBackward span

def namedClass? : String → Option NamedClass
  | "alnum" => some .alnum
  | "alpha" => some .alpha
  | "ascii" => some .ascii
  | "blank" => some .blank
  | "cntrl" => some .cntrl
  | "digit" => some .digit
  | "graph" => some .graph
  | "lower" => some .lower
  | "print" => some .print
  | "punct" => some .punct
  | "space" => some .space
  | "upper" => some .upper
  | "word" => some .word
  | "xdigit" => some .xdigit
  | _ => none

/-- A named class between bracket and colon, if one stands here. -/
def namedClass : Reader (Option ClassTree) := do
  let before ← get
  let start := before.mark
  if !(← skipText "[:") then return none
  else
    let negated ← skipText "^"
    let name := (← get).rest.takeWhile (· ≠ ':')
    name.forM fun _ => skip
    let closed ← skipText ":]"
    match namedClass? (String.ofList name) with
    | some k =>
      if closed then return some (.named (← spanFrom start) negated k)
      else
        set before
        return none
    | none =>
      set before
      return none

/-- The dashes at the start of a class, which stand for themselves. -/
def leadingDashes (start : Mark) : Nat → Items → Reader Items
  | 0, u => return u
  | fuel + 1, u => do
    if (← peek) = some '-' then
      let span ← spanNext
      skipSpaced
      if ← atEnd then refuse .classUnclosed ⟨start, start⟩
      else leadingDashes start fuel (u.push (.literal ⟨span, '-', false⟩))
    else return u

/-- The start of a class: its stretch, whether the class is negated, and the items
    that belong to it because they could not be told apart from its end. -/
def classOpening : Reader (Span × Bool × Items) := do
  let start ← mark
  skipSpaced
  if ← atEnd then refuseFrom .classUnclosed start
  else
    let negated := (← peek) = some '^'
    if negated then skipSpaced
    if ← atEnd then refuseFrom .classUnclosed start
    else
      let u ← leadingDashes start (← get).rest.length ⟨← mark, []⟩
      if u.items.isEmpty && (← peek) = some ']' then
        let span ← spanNext
        skipSpaced
        if ← atEnd then refuseFrom .classUnclosed start
        else return (← spanFrom start, negated, u.push (.literal ⟨span, ']', false⟩))
      else return (← spanFrom start, negated, u)

/-- A set as the right side of the operation before it, if there is one. -/
def combined (left : Option (SetOperation × ClassTree)) (right : ClassTree) : ClassTree :=
  match left with
  | none => right
  | some (operation, left) =>
    .operation ⟨left.span.start, right.span.stop⟩ operation left right

def setOperation? : Reader (Option SetOperation) := do
  if ← skipText "&&" then return some .intersection
  else if ← skipText "--" then return some .difference
  else if ← skipText "~~" then return some .symmetricDifference
  else return none

/-- What stands in a class up to its closing bracket.  `left` is the set before the
    last operation, and `u` the items after that. -/
def classInside : Nat → Span → Option (SetOperation × ClassTree) → Items → Reader ClassTree
  | 0, opening, _, _ => refuse .classUnclosed opening
  | fuel + 1, opening, left, u => do
    skipSpacing
    match ← peek with
    | none => refuse .classUnclosed opening
    | some ']' => return combined left u.tree
    | some '[' =>
      match ← namedClass with
      | some item => classInside fuel opening left (u.push item)
      | none =>
        let (inner, negated, first) ← classOpening
        let set ← classInside fuel inner none first
        skip
        let span ← spanFrom inner.start
        classInside fuel opening left (u.push (.bracket span negated set))
    | some _ =>
      match ← setOperation? with
      | some operation =>
        classInside fuel opening (some (operation, combined left u.tree)) ⟨← mark, []⟩
      | none =>
        let item ← classRange opening
        classInside fuel opening left (u.push item)

def bracket : Reader Tree := do
  let (opening, negated, first) ← classOpening
  let set ← classInside ((← get).rest.length + 1) opening none first
  skip
  return .bracket (← spanFrom opening.start) negated set

/-! ### Repetitions -/

/-- The part that a repetition repeats, and the parts before it. -/
def repeatable (parts : List Tree) : Reader (Tree × List Tree) := do
  match parts with
  | [] => refuseHere .nothingToRepeat
  | .flags .. :: _ | .nothing _ :: _ => refuseHere .nothingToRepeat
  | part :: before => return (part, before)

/-- Get past the question mark that makes a repetition a reluctant one. -/
def skipReluctance : Reader Unit := do
  if (← peek) = some '?' then skip

/-- A decimal number, if there is one, and what is wrong with it otherwise. -/
def decimal : Reader (Except Fault Nat) := do
  let blanks := (← get).rest.takeWhile Text.isBlank
  blanks.forM fun _ => skip
  let start ← mark
  let digits ← takeAll Char.isDigit
  let span ← spanFrom start
  let blanks := (← get).rest.takeWhile Text.isBlank
  blanks.forM fun _ => skip
  if !blanks.isEmpty then skipSpacing
  let n := digits.foldl (fun n c => n * 10 + (c.toNat - 48)) 0
  if digits.isEmpty then return .error ⟨.countEmpty, span, none⟩
  else if n < Nat.pow 2 32 then return .ok n
  else return .error ⟨.decimalInvalid, span, none⟩

def required (n : Except Fault Nat) : Reader Nat :=
  match n with
  | .ok n => return n
  | .error fault => throw fault

/-- The bounds of a count, after its opening brace. -/
def bounds (start : Mark) : Reader (Nat × Option Nat) := do
  let first ← decimal
  match ← peek with
  | none => refuseFrom .countUnclosed start
  | some ',' =>
    skipSpaced
    match ← peek with
    | none => refuseFrom .countUnclosed start
    | some '}' => return (← required first, none)
    | some _ =>
      let least ← required first
      let most ← required (← decimal)
      return (least, some most)
  | some _ =>
    let n ← required first
    return (n, some n)

/-- A part repeated as often as a count in braces says. -/
def counted (part : Tree) : Reader Tree := do
  let start ← mark
  skipSpaced
  if ← atEnd then refuseFrom .countUnclosed start
  else
    let (least, most) ← bounds start
    if (← peek) ≠ some '}' then refuseFrom .countUnclosed start
    else
      skipSpaced
      skipReluctance
      if most.all fun most => least ≤ most then
        return .repeated (← spanFrom part.span.start) part least most
      else refuseFrom .countBackward start

/-- A part repeated as the sign at the front says. -/
def repeatedBy (part : Tree) (least : Nat) (most : Option Nat) : Reader Tree := do
  skip
  skipReluctance
  return .repeated (← spanFrom part.span.start) part least most

/-! ### Groups -/

def flag? : Char → Option Flag
  | 'i' => some .caseless
  | 'm' => some .multiLine
  | 's' => some .dotAll
  | 'U' => some .swapGreed
  | 'u' => some .unicode
  | 'R' => some .returns
  | 'x' => some .spacing
  | _ => none

/-- The flags up to a colon or a closing parenthesis, each with its stretch. -/
def flagItems : Nat → List (FlagItem × Span) → Reader (List (FlagItem × Span))
  | 0, soFar => return soFar
  | fuel + 1, soFar => do
    let span ← spanNext
    let add (item : FlagItem) (twice : Mistake) : Reader (List (FlagItem × Span)) := do
      match soFar.find? fun entry => entry.1 == item with
      | some entry => throw ⟨twice, span, some entry.2⟩
      | none =>
        skip
        if ← atEnd then refuseHere .flagsAtEnd
        else flagItems fuel (soFar ++ [(item, span)])
    match ← peek with
    | none | some ':' | some ')' =>
      match soFar.getLast? with
      | some (.negation, last) => refuse .negationDangling last
      | _ => return soFar
    | some '-' => add .negation .negationTwice
    | some c =>
      match flag? c with
      | some flag => add (.flag flag) .flagTwice
      | none => refuse .flagUnknown span

/-- Letters outside of ASCII that may stand in the name of a group. -/
def isFarLetter (c : Char) : Bool := 0xAA ≤ c.toNat && !Text.isBlank c

/-- Whether a character may stand in the name of a group. -/
def isNameChar (first : Bool) (c : Char) : Bool :=
  c == '_' || c.isAlpha || isFarLetter c
    || !first && (c.isDigit || c == '.' || c == '[' || c == ']')

/-- The characters of the name of a group. -/
def nameChars (start : Mark) : Nat → Reader (List Char)
  | 0 => return []
  | fuel + 1 => do
    match ← peek with
    | none | some '>' => return []
    | some c =>
      if isNameChar ((← mark) == start) c then
        skip
        return c :: (← nameChars start fuel)
      else refuseNext .nameInvalid

/-- The name of a group and the bracket that closes it. -/
def groupName : Reader Unit := do
  let start ← mark
  let name ← nameChars start ((← get).rest.length)
  if ← atEnd then refuseHere .nameUnclosed
  else
    let span ← spanFrom start
    skip
    if name.isEmpty then refuse .nameEmpty ⟨start, start⟩
    else
      match (← get).names.lookup (String.ofList name) with
      | some earlier => throw ⟨.nameTwice, span, some earlier⟩
      | none => modify fun s => { s with names := (String.ofList name, span) :: s.names }

/-- Whether what stands here looks around. -/
def looksAround : Reader Bool := do
  if ← skipText "?=" then return true
  else if ← skipText "?!" then return true
  else if ← skipText "?<=" then return true
  else skipText "?<!"

/-- What a parenthesis opens: a group with flags of its own, or flags for the rest of
    the group that it stands in. -/
inductive Opening where
  | group (span : Span) (flags : List FlagItem)
  | flags (span : Span) (items : List FlagItem)

/-- The start of a group, from its parenthesis on. -/
def groupOpening : Reader Opening := do
  let span ← spanNext
  skipSpaced
  if ← looksAround then refuseFrom .lookAround span.start
  else
    let inner ← spanHere
    let named ← do
      if ← skipText "?P<" then pure true
      else skipText "?<"
    if named then
      groupName
      return .group span []
    else if ← skipText "?" then
      if ← atEnd then refuse .groupUnclosed span
      else
        let items ← flagItems ((← get).rest.length + 1) []
        let closing ← peek
        skip
        if closing = some ')' then
          if items.isEmpty then refuse .nothingToRepeat inner
          else return .flags (← spanFrom span.start) (items.map (·.1))
        else return .group span (items.map (·.1))
    else return .group span []

def switchSpacing (items : List FlagItem) : Reader Unit :=
  modify fun s => { s with spacing := (flagState .spacing true items).getD s.spacing }

/-! ### Whole patterns -/

/-- Parts in a row, given the last one first. -/
def sequenceOf (span : Span) (parts : List Tree) : Tree :=
  match parts with
  | [] => .nothing span
  | [part] => part
  | parts => .sequence span parts.reverse

/-- Branches, given the last one first, and the one after them. -/
def alternativesOf (span : Span) (branches : List Tree) (last : Tree) : Tree :=
  if branches.isEmpty then last else .alternatives span (branches ++ [last])

/-- What stands in a group or a whole pattern, up to a closing parenthesis or the
    end.  It starts at `outer` with `branches`; `parts` are the parts of the branch
    that starts at `start`, the last one first. -/
def inside : Nat → Mark → List Tree → Mark → List Tree → Reader Tree
  | 0, outer, _, _, _ => return .nothing ⟨outer, outer⟩
  | fuel + 1, outer, branches, start, parts => do
    skipSpacing
    let next (part : Tree) : Reader Tree := inside fuel outer branches start (part :: parts)
    match ← peek with
    | none | some ')' =>
      let branch := sequenceOf (← spanFrom start) parts
      return alternativesOf (← spanFrom outer) branches branch
    | some '|' =>
      let branch := sequenceOf (← spanFrom start) parts
      skip
      inside fuel outer (branches ++ [branch]) (← mark) []
    | some '(' =>
      match ← groupOpening with
      | .flags span items =>
        switchSpacing items
        next (.flags span items)
      | .group span items =>
        let spacing := (← get).spacing
        switchSpacing items
        let here ← mark
        let body ← inside fuel here [] here []
        if ← atEnd then refuse .groupUnclosed span
        else
          modify fun s => { s with spacing }
          skip
          next (.group (← spanFrom span.start) items body)
    | some '[' => next (← bracket)
    | some '?' =>
      let (part, before) ← repeatable parts
      inside fuel outer branches start ((← repeatedBy part 0 (some 1)) :: before)
    | some '*' =>
      let (part, before) ← repeatable parts
      inside fuel outer branches start ((← repeatedBy part 0 none) :: before)
    | some '+' =>
      let (part, before) ← repeatable parts
      inside fuel outer branches start ((← repeatedBy part 1 none) :: before)
    | some '{' =>
      let (part, before) ← repeatable parts
      inside fuel outer branches start ((← counted part) :: before)
    | some c => next (← primitive c)

/-- How deep the parts of a pattern may be nested. -/
def maxNesting : Nat := 250

def whole : Reader Tree := do
  let tree ← inside ((← get).rest.length + 1) .origin [] .origin []
  if !(← atEnd) then refuseNext .groupUnopened
  else
    match tree.deepest maxNesting with
    | some span => refuse (.nestedTooDeep maxNesting) span
    | none => return tree

end Reader

def Tree.read (pattern : String) : Except Fault Tree :=
  match Reader.whole ⟨pattern.toList, .origin, false, []⟩ with
  | .ok tree _ => .ok tree
  | .error fault _ => .error fault

end DesignMarkup.Pattern
