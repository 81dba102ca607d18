/-
  DesignMarkup/Style/Placement.lean
  =================================
  **How a node sits in its parent.**  What a node has to know of its parent is
  whether the parent lays out its children, where the parent's corner is, and against
  which corner coordinates are written.  From that and from whether the node lays out
  its own children follows its placement.
-/
import DesignMarkup.Design.Node

namespace DesignMarkup

/-- The corner that coordinates are written against. -/
inductive Coordinates where
  /-- The corner of the document. -/
  | document
  /-- The corner of the parent. -/
  | relative
deriving DecidableEq, Repr

/-- What a node knows of its parent. -/
structure Surroundings where
  /-- The parent lays out its children along an axis. -/
  autoLayout : Bool
  /-- The top-left corner of the parent. -/
  origin : Float × Float
  coordinates : Coordinates
deriving Repr

namespace Surroundings

/-- Surroundings in the coordinates of the document. -/
def document (autoLayout : Bool) : Surroundings := ⟨autoLayout, (0, 0), .document⟩

/-- The surroundings of the children of a node in these surroundings. -/
def within (s : Surroundings) (p : Props) : Surroundings :=
  ⟨p.isAutoLayout, p.corner?.getD s.origin, s.coordinates⟩

/-- The surroundings of the children of a root. -/
def below (coordinates : Coordinates) (p : Props) : Surroundings :=
  ⟨p.isAutoLayout, p.corner?.getD (0, 0), coordinates⟩

/-- The corner that coordinates are taken from. -/
def reference (s : Surroundings) : Float × Float :=
  match s.coordinates with
  | .document => (0, 0)
  | .relative => s.origin

end Surroundings

/-- How a node sits in its parent. -/
inductive Placement where
  /-- In line with its siblings. -/
  | flexItem
  /-- At a position of its own. -/
  | absolute
  /-- With a size but no position: it lays out its children itself, in the
      coordinates of the document. -/
  | sized
deriving DecidableEq, Repr

/-- The placement of a node in its surroundings. -/
def Placement.of (p : Props) (s : Surroundings) : Placement :=
  if s.autoLayout then .flexItem
  else if p.isAutoLayout && s.coordinates == .document then .sized
  else .absolute

end DesignMarkup
