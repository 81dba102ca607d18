/-
  DesignMarkup/Pattern/OfTree.lean
  ================================
  **From the written pattern to its meaning.**  Flags in force decide what a part
  means, and some parts have no meaning under some flags: classes of all of Unicode
  and letters of either case are not supported beyond ASCII, and where Unicode is
  switched off, nothing may match a part of a character.

  A class that holds letters by themselves is completed by their other case at its
  brackets, and on each side of an operation.
-/
import DesignMarkup.Pattern.Expr
import DesignMarkup.Pattern.Read

namespace DesignMarkup.Pattern

/-- The flags that change what a pattern means. -/
structure Flags where
  caseless : Bool := false
  multiLine : Bool := false
  dotAll : Bool := false
  unicode : Bool := true
  returns : Bool := false
deriving DecidableEq, Repr

def Flags.switch (f : Flags) (items : List FlagItem) : Flags where
  caseless := (flagState .caseless true items).getD f.caseless
  multiLine := (flagState .multiLine true items).getD f.multiLine
  dotAll := (flagState .dotAll true items).getD f.dotAll
  unicode := (flagState .unicode true items).getD f.unicode
  returns := (flagState .returns true items).getD f.returns

/-- The meaning of a part, or what is wrong with it. -/
abbrev Meant (α : Type) := Except Fault α

def refused {α : Type} (mistake : Mistake) (span : Span) : Meant α := .error ⟨mistake, span, none⟩

/-! ### Classes -/

def NamedClass.set : NamedClass → CharSet
  | .alnum => .unionOf [.range '0' '9', .range 'A' 'Z', .range 'a' 'z']
  | .alpha => .unionOf [.range 'A' 'Z', .range 'a' 'z']
  | .ascii => .range '\x00' '\x7f'
  | .blank => .unionOf [.single '\t', .single ' ']
  | .cntrl => .unionOf [.range '\x00' '\x1f', .single '\x7f']
  | .digit => .range '0' '9'
  | .graph => .range '!' '~'
  | .lower => .range 'a' 'z'
  | .print => .range ' ' '~'
  | .punct => .unionOf [.range '!' '/', .range ':' '@', .range '[' '`', .range '\x7b' '~']
  | .space => .unionOf [.range '\t' '\r', .single ' ']
  | .upper => .range 'A' 'Z'
  | .word => .unionOf [.range '0' '9', .range 'A' 'Z', .single '_', .range 'a' 'z']
  | .xdigit => .unionOf [.range '0' '9', .range 'A' 'F', .range 'a' 'f']

/-- The ASCII characters of a class with a letter. -/
def Shorthand.set : Shorthand → CharSet
  | .digit => NamedClass.set .digit
  | .space => NamedClass.set .space
  | .word => NamedClass.set .word

/-- A set, or all characters that are not in it. -/
def CharSet.negateIf (negated : Bool) (set : CharSet) : CharSet := if negated then .compl set else set

/-- A set that must not hold a part of a character where Unicode is switched off. -/
def wholeCharacters (span : Span) (set : CharSet) : Meant CharSet :=
  if set.contains '\u0080' then refused .splitsCharacters span else return set

/-- A name of a property with only what matters in it: no case, no spaces, dashes and
    underscores, and no `is` in front. -/
def normalName (name : String) : String :=
  let ascii := name.toList
  let (isIs, rest) :=
    match ascii with
    | i :: s :: rest =>
      if (i == 'i' || i == 'I') && (s == 's' || s == 'S') then (true, rest) else (false, ascii)
    | _ => (false, ascii)
  let kept := rest.filter fun c => c.toNat < 0x80 && c != ' ' && c != '_' && c != '-'
  let lower := kept.map Char.toLower
  if isIs && lower == ['c'] then "isc" else String.ofList lower

/-- What is wrong with a property: none is known, but a few names are looked up among
    the values of other properties only. -/
def Property.mistake : Property → Mistake
  | .valued => .propertyUnknown
  | .named name =>
    if ["cf", "sc", "lc"].contains (normalName name) then .propertyValueUnknown else .propertyUnknown

def propertySet (f : Flags) (span : Span) (p : Property) : Meant CharSet :=
  if f.unicode then refused p.mistake span else refused .propertyNotAllowed span

def shorthandSet (f : Flags) (span : Span) (negated : Bool) (s : Shorthand) : Meant CharSet :=
  if f.unicode then refused .shorthandUnavailable span
  else wholeCharacters span (s.set.negateIf negated)

/-- A set with what the flags add to it at its edge; `bare` says that it holds
    characters whose other case is still missing. -/
def completed (f : Flags) (span : Span) (bare : Bool) (set : CharSet) : Meant CharSet :=
  if !f.caseless then return set
  else if !f.unicode then return .anyCase set
  else if bare then refused .caseUnavailable span
  else return set

/-- A set completed and negated. -/
def closedSet (f : Flags) (span : Span) (negated bare : Bool) (set : CharSet) : Meant CharSet := do
  let set ← completed f span bare set
  let set := set.negateIf negated
  if f.unicode then return set else wholeCharacters span set

/-- The character of a literal, which in a class without Unicode must be ASCII. -/
def classChar (f : Flags) (l : Literal) : Meant Char :=
  if f.unicode || l.char.toNat < 0x80 then return l.char
  else if l.isByte then refused .splitsCharacters l.span
  else refused .propertyNotAllowed l.span

def SetOperation.apply : SetOperation → CharSet → CharSet → CharSet
  | .intersection, a, b => .inter a b
  | .difference, a, b => .diff a b
  | .symmetricDifference, a, b => .union (.diff a b) (.diff b a)

namespace ClassTree

/-- Whether a part is a character or a range by itself. -/
def isBare : ClassTree → Bool
  | .literal _ | .range .. => true
  | _ => false

/-- Whether a part holds characters by themselves. -/
def holdsBare : ClassTree → Bool
  | .union _ items => items.any isBare
  | t => t.isBare

mutual

def set (f : Flags) : ClassTree → Meant CharSet
  | .nothing _ => return .none
  | .literal l => return .single (← classChar f l)
  | .range _ first last => do
    let first ← classChar f first
    let last ← classChar f last
    return .range first last
  | .named s negated k => closedSet f s negated true k.set
  | .property s _ p => propertySet f s p
  | .shorthand s negated k => shorthandSet f s negated k
  | .bracket s negated inner => do
    let set ← inner.set f
    closedSet f s negated inner.holdsBare set
  | .union _ items => return .unionOf (← setsOf f items)
  | .operation _ kind left right => do
    let a ← left.set f
    let b ← right.set f
    let b ← completed f right.span right.holdsBare b
    let a ← completed f left.span left.holdsBare a
    return kind.apply a b

def setsOf (f : Flags) : List ClassTree → Meant (List CharSet)
  | [] => return []
  | t :: rest => do
    let first ← t.set f
    let more ← setsOf f rest
    return first :: more

end

end ClassTree

/-! ### Patterns -/

/-- A condition on a place, and whether it asks for words beyond ASCII. -/
def Assertion.look (f : Flags) : Assertion → Look × Bool
  | .lineStart =>
    (if !f.multiLine then .textStart else if f.returns then .lineStartReturn else .lineStart, false)
  | .lineEnd =>
    (if !f.multiLine then .textEnd else if f.returns then .lineEndReturn else .lineEnd, false)
  | .textStart => (.textStart, false)
  | .textEnd => (.textEnd, false)
  | .boundary => (.boundary, f.unicode)
  | .noBoundary => (.noBoundary, f.unicode)
  | .wordStart => (.wordStart, f.unicode)
  | .wordEnd => (.wordEnd, f.unicode)
  | .wordStartHalf => (.wordStartHalf, f.unicode)
  | .wordEndHalf => (.wordEndHalf, f.unicode)

/-- The meaning of a part: its expression, and whether it asks for words beyond ASCII,
    which cannot be told. -/
structure Meaning where
  expr : Expr
  farWords : Bool := false
deriving DecidableEq, Repr

def literalSet (f : Flags) (l : Literal) : Meant CharSet :=
  if f.unicode then
    if f.caseless then refused .caseUnavailable l.span else return .single l.char
  else if l.isByte && 0x80 ≤ l.char.toNat then refused .splitsCharacters l.span
  else if f.caseless then return .anyCase (.single l.char)
  else return .single l.char

def dotSet (f : Flags) (span : Span) : Meant CharSet :=
  if !f.unicode then refused .splitsCharacters span
  else if f.dotAll then return .compl .none
  else if f.returns then return .compl (.union (.single '\n') (.single '\r'))
  else return .compl (.single '\n')

/-- A meaning that depends on the flags in force and may switch them. -/
abbrev Reading := StateT Flags (Except Fault)

/-- The meaning of a set of characters. -/
def ofSet (set : Flags → Meant CharSet) : Reading Meaning := do
  let set ← set (← get)
  return ⟨.char set, false⟩

namespace Tree

mutual

def meaning : Tree → Reading Meaning
  | .nothing _ => return ⟨.nothing, false⟩
  | .flags _ items => do
    modify fun f => f.switch items
    return ⟨.nothing, false⟩
  | .literal l => ofSet fun f => literalSet f l
  | .dot s => ofSet fun f => dotSet f s
  | .assertion _ a => do
    let (look, farWords) := a.look (← get)
    return ⟨.look look, farWords⟩
  | .property s _ p => ofSet fun f => propertySet f s p
  | .shorthand s negated k => ofSet fun f => shorthandSet f s negated k
  | .bracket s negated inner => ofSet fun f => (ClassTree.bracket s negated inner).set f
  | .repeated _ body least most => do
    let m ← body.meaning
    if most = some 0 then return ⟨.nothing, false⟩
    else return { m with expr := .repeated m.expr least most }
  | .group _ items body => do
    let f ← get
    set (f.switch items)
    let m ← body.meaning
    set f
    return m
  | .alternatives _ branches => do
    let ms ← meanings branches
    return ⟨.alternatives (ms.map (·.expr)), ms.any (·.farWords)⟩
  | .sequence _ items => do
    let ms ← meanings items
    return ⟨.sequence (ms.map (·.expr)), ms.any (·.farWords)⟩

def meanings : List Tree → Reading (List Meaning)
  | [] => return []
  | t :: rest => do
    let first ← t.meaning
    let more ← meanings rest
    return first :: more

end

end Tree

/-! ### Size -/

/-- The room that a set takes in a compiled pattern, in bytes. -/
def CharSet.room (set : CharSet) : Nat := if set.isAscii then 32 else 480

/-- The room that an expression takes in a compiled pattern, in bytes: each repetition
    is written out. -/
def Expr.room : Expr → Nat
  | .nothing | .look _ => 32
  | .char set => set.room
  | .andThen a b => a.room + b.room
  | .orElse a b => a.room + b.room + 72
  | .repeated body least none => (max 1 least) * body.room + 72
  | .repeated body least (some most) => least * body.room + (most - least) * (body.room + 40) + 32

def maxRoom : Nat := 10 * Nat.pow 2 20

/-! ### Reading a pattern -/

/-- Why a text is no pattern. -/
inductive Refusal where
  | faulty (pattern : String) (fault : Fault)
  | tooLarge
  | farWords
deriving DecidableEq, Repr

def Refusal.message : Refusal → String
  | .faulty pattern fault => fault.report pattern
  | .tooLarge => "Compiled regex exceeds size limit of " ++ toString maxRoom ++ " bytes."
  | .farWords => "error building NFA"

def Expr.read (pattern : String) : Except Refusal Expr := do
  let m ←
    match Tree.read pattern with
    | .ok tree =>
      match tree.meaning.run {} with
      | .ok (m, _) => pure m
      | .error fault => throw (.faulty pattern fault)
    | .error fault => throw (.faulty pattern fault)
  if maxRoom < m.expr.room then throw .tooLarge
  else if m.farWords then throw .farWords
  else return m.expr

end DesignMarkup.Pattern
