/-
  DesignMarkup/Pattern/Expr.lean
  ==============================
  **What a pattern means.**  An expression relates the places of a text: from a place
  it leads to every place at which a part of the text that starts there and matches
  can end.  `Expr.reach` follows that relation from a set of places.

  A set of places is a list of marks, one for each place: before the first character,
  after it, and so on.  A repetition is followed until it leads nowhere new, which
  happens within as many steps as there are places; so a count is followed no further
  than that, since a longer run of steps has to stay at some place, where it can stay
  longer still.
-/

namespace DesignMarkup.Pattern

/-! ### Characters -/

inductive CharSet where
  | none
  | range (first last : Char)
  | union (left right : CharSet)
  | inter (left right : CharSet)
  | diff (left right : CharSet)
  | compl (set : CharSet)
  /-- The set with the other case of its ASCII letters. -/
  | anyCase (set : CharSet)
deriving DecidableEq, Repr

def otherCase (c : Char) : Char := if c.isUpper then c.toLower else c.toUpper

namespace CharSet

def contains : CharSet → Char → Bool
  | .none, _ => false
  | .range first last, c => first ≤ c && c ≤ last
  | .union a b, c => a.contains c || b.contains c
  | .inter a b, c => a.contains c && b.contains c
  | .diff a b, c => a.contains c && !b.contains c
  | .compl a, c => !a.contains c
  | .anyCase a, c => a.contains c || a.contains (otherCase c)

def single (c : Char) : CharSet := .range c c

def unionOf (sets : List CharSet) : CharSet := sets.foldr .union .none

/-- Whether the set can be seen to hold nothing but ASCII. -/
def isAscii : CharSet → Bool
  | .none => true
  | .range _ last => last.toNat < 0x80
  | .union a b => a.isAscii && b.isAscii
  | .inter a b => a.isAscii || b.isAscii
  | .diff a _ => a.isAscii
  | .compl _ => false
  | .anyCase a => a.isAscii

end CharSet

/-! ### Places -/

/-- A condition on a place, by the characters before and after it. -/
inductive Look where
  | textStart
  | textEnd
  | lineStart
  | lineEnd
  /-- A line starts, where a carriage return ends lines as well. -/
  | lineStartReturn
  | lineEndReturn
  | boundary
  | noBoundary
  | wordStart
  | wordEnd
  | wordStartHalf
  | wordEndHalf
deriving DecidableEq, Repr

/-- Whether there is a character of an ASCII word. -/
def isWord (c : Option Char) : Bool := c.any fun c => c.isAlphanum || c == '_'

/-- Whether a condition holds between two characters, of which there is none at the
    ends of the text. -/
def Look.holds (before after : Option Char) : Look → Bool
  | .textStart => before.isNone
  | .textEnd => after.isNone
  | .lineStart => before.all (· == '\n')
  | .lineEnd => after.all (· == '\n')
  | .lineStartReturn => before.all fun c => c == '\n' || c == '\r' && after != some '\n'
  | .lineEndReturn => after.all fun c => c == '\r' || c == '\n' && before != some '\r'
  | .boundary => isWord before != isWord after
  | .noBoundary => isWord before == isWord after
  | .wordStart => !isWord before && isWord after
  | .wordEnd => isWord before && !isWord after
  | .wordStartHalf => !isWord before
  | .wordEndHalf => !isWord after

/-- A mark for each place of a text. -/
abbrev Places := List Bool

namespace Places

def all (text : List Char) : Places := true :: text.map fun _ => true

def union (a b : Places) : Places := List.zipWith or a b

/-- The places after a character of `set` that starts at a marked place. -/
def step (set : CharSet) (text : List Char) (marks : Places) : Places :=
  false :: List.zipWith (fun here c => here && set.contains c) marks text

/-- The marked places where a condition holds; `before` is the character before the
    first of them. -/
def holding (look : Look) (before : Option Char) : List Char → Places → Places
  | _, [] => []
  | [], mark :: rest => (mark && look.holds before none) :: rest
  | c :: text, mark :: rest =>
    (mark && look.holds before (some c)) :: holding look (some c) text rest

/-- Follow `f` as often as said. -/
def iterate (f : Places → Places) : Nat → Places → Places
  | 0, marks => marks
  | n + 1, marks => iterate f n (f marks)

/-- Follow `f` up to as often as said, keeping the places on the way. -/
def saturate (f : Places → Places) : Nat → Places → Places
  | 0, marks => marks
  | n + 1, marks =>
    let more := marks.union (f marks)
    if more == marks then marks else saturate f n more

end Places

/-! ### Expressions -/

/-- A pattern whose flags have been taken into account. -/
inductive Expr where
  | nothing
  | char (set : CharSet)
  | look (condition : Look)
  | andThen (first second : Expr)
  | orElse (left right : Expr)
  | repeated (body : Expr) (least : Nat) (most : Option Nat)
deriving DecidableEq, Repr

namespace Expr

def sequence : List Expr → Expr
  | [] => .nothing
  | [e] => e
  | e :: rest => .andThen e (sequence rest)

def alternatives : List Expr → Expr
  | [] => .char .none
  | [e] => e
  | e :: rest => .orElse e (alternatives rest)

/-- The places of a text that an expression leads to from the marked ones. -/
def reach (text : List Char) : Expr → Places → Places
  | .nothing, marks => marks
  | .char set, marks => marks.step set text
  | .look condition, marks => marks.holding condition none text
  | .andThen a b, marks => b.reach text (a.reach text marks)
  | .orElse a b, marks => (a.reach text marks).union (b.reach text marks)
  | .repeated body least most, marks =>
    let enough := text.length + 1
    let first := Places.iterate (body.reach text) (min least enough) marks
    match most with
    | none => Places.saturate (body.reach text) enough first
    | some most => Places.saturate (body.reach text) (min (most - least) enough) first

def occursIn (e : Expr) (text : String) : Bool :=
  (e.reach text.toList (Places.all text.toList)).any id

end Expr

end DesignMarkup.Pattern
