/-
  DesignMarkup/Pattern/Tree.lean
  ==============================
  **A pattern as it is written.**  The tree keeps the stretch of every part, since a
  part can turn out to be wrong long after it was read: what a literal or a class
  stands for depends on the flags in force.
-/
import DesignMarkup.Pattern.Fault

namespace DesignMarkup.Pattern

structure Literal where
  span : Span
  char : Char
  /-- Whether it is written as a backslash, an `x` and two digits. -/
  isByte : Bool
deriving DecidableEq, Repr

/-- A switch of the meaning of patterns. -/
inductive Flag where
  | caseless
  | multiLine
  | dotAll
  | swapGreed
  | unicode
  | returns
  | spacing
deriving DecidableEq, Repr

/-- A flag in a list of flags; the flags after a negation are switched off. -/
inductive FlagItem where
  | negation
  | flag (flag : Flag)
deriving DecidableEq, Repr

/-- What is asked of a place. -/
inductive Assertion where
  | lineStart
  | lineEnd
  | textStart
  | textEnd
  | boundary
  | noBoundary
  | wordStart
  | wordEnd
  | wordStartHalf
  | wordEndHalf
deriving DecidableEq, Repr

inductive Shorthand where
  | digit
  | space
  | word
deriving DecidableEq, Repr

inductive NamedClass where
  | alnum | alpha | ascii | blank | cntrl | digit | graph | lower | print | punct | space
  | upper | word | xdigit
deriving DecidableEq, Repr

/-- A property of characters, asked for by its name or as the value of a property. -/
inductive Property where
  | named (name : String)
  | valued
deriving DecidableEq, Repr

/-- How two sets of a class are put together. -/
inductive SetOperation where
  | intersection
  | difference
  | symmetricDifference
deriving DecidableEq, Repr

inductive ClassTree where
  | nothing (span : Span)
  | literal (literal : Literal)
  | range (span : Span) (first last : Literal)
  | named (span : Span) (negated : Bool) (name : NamedClass)
  | property (span : Span) (negated : Bool) (property : Property)
  | shorthand (span : Span) (negated : Bool) (shorthand : Shorthand)
  | bracket (span : Span) (negated : Bool) (inner : ClassTree)
  | union (span : Span) (items : List ClassTree)
  | operation (span : Span) (kind : SetOperation) (left right : ClassTree)
deriving Repr

inductive Tree where
  | nothing (span : Span)
  | flags (span : Span) (items : List FlagItem)
  | literal (literal : Literal)
  | dot (span : Span)
  | assertion (span : Span) (assertion : Assertion)
  | property (span : Span) (negated : Bool) (property : Property)
  | shorthand (span : Span) (negated : Bool) (shorthand : Shorthand)
  | bracket (span : Span) (negated : Bool) (inner : ClassTree)
  | repeated (span : Span) (body : Tree) (least : Nat) (most : Option Nat)
  | group (span : Span) (flags : List FlagItem) (body : Tree)
  | alternatives (span : Span) (branches : List Tree)
  | sequence (span : Span) (items : List Tree)
deriving Repr

def ClassTree.span : ClassTree → Span
  | .literal l => l.span
  | .nothing s | .range s _ _ | .named s _ _ | .property s _ _ | .shorthand s _ _
  | .bracket s _ _ | .union s _ | .operation s _ _ _ => s

def Tree.span : Tree → Span
  | .literal l => l.span
  | .nothing s | .flags s _ | .dot s | .assertion s _ | .property s _ _ | .shorthand s _ _
  | .bracket s _ _ | .repeated s _ _ _ | .group s _ _ | .alternatives s _ | .sequence s _ => s

/-- What flags say about one flag, if anything. -/
def flagState (flag : Flag) : Bool → List FlagItem → Option Bool
  | _, [] => none
  | _, .negation :: rest => flagState flag false rest
  | on, .flag f :: rest => if f = flag then some on else flagState flag on rest

/-! ### Nesting -/

/-- The first part that stands inside more than `room` others, in the order written. -/
def tooDeep (room : Nat) (span : Span) (inside : Nat → Option Span) : Option Span :=
  match room with
  | 0 => some span
  | room + 1 => inside room

namespace ClassTree

mutual

/-- The first part that is nested too deep. -/
def deepest (room : Nat) : ClassTree → Option Span
  | .nothing _ | .literal _ | .range .. | .named .. | .property .. | .shorthand .. => none
  | .bracket s _ inner => tooDeep room s fun room => inner.deepest room
  | .union s items => tooDeep room s fun room => deepestOf room items
  | .operation s _ left right =>
    tooDeep room s fun room => (left.deepest room).or (right.deepest room)

/-- The first part among items that is nested too deep. -/
def deepestOf (room : Nat) : List ClassTree → Option Span
  | [] => none
  | t :: rest => (t.deepest room).or (deepestOf room rest)

end

end ClassTree

namespace Tree

mutual

/-- The first part that is nested too deep. -/
def deepest (room : Nat) : Tree → Option Span
  | .nothing _ | .flags .. | .literal _ | .dot _ | .assertion .. | .property .. | .shorthand .. =>
    none
  | .bracket s _ inner => tooDeep room s fun room => inner.deepest room
  | .repeated s body _ _ => tooDeep room s fun room => body.deepest room
  | .group s _ body => tooDeep room s fun room => body.deepest room
  | .alternatives s branches => tooDeep room s fun room => deepestOf room branches
  | .sequence s items => tooDeep room s fun room => deepestOf room items

/-- The first part among items that is nested too deep. -/
def deepestOf (room : Nat) : List Tree → Option Span
  | [] => none
  | t :: rest => (t.deepest room).or (deepestOf room rest)

end

end Tree

end DesignMarkup.Pattern
