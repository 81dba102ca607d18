/-
  DesignMarkup/Design/Shape.lean
  ==============================
  **The vocabulary of a design:** what kinds of node, layout, alignment and paint
  there are, and the boxes, colors and fonts that nodes carry.  Every tag is closed
  by `other`, which stands for any name that is not listed.
-/

namespace DesignMarkup

inductive NodeType where
  | document | canvas | frame | group | canvasSection | text | rectangle | ellipse | line
  | vector | star | regularPolygon | booleanOperation | component | componentSet
  | componentInstance | slice | other
deriving DecidableEq, Repr, Inhabited

inductive LayoutMode where
  | none | horizontal | vertical | other
deriving DecidableEq, Repr

/-- How a child behaves across the axis of its parent. -/
inductive LayoutAlign where
  | inherit | stretch | min | center | max | other
deriving DecidableEq, Repr

/-- Where the children of an auto-layout node gather along or across its axis. -/
inductive AxisAlign where
  | min | max | center | spaceBetween | baseline | other
deriving DecidableEq, Repr

inductive PaintType where
  | solid | gradientLinear | gradientRadial | gradientAngular | gradientDiamond
  | image | emoji | video | other
deriving DecidableEq, Repr

structure Rect where
  x : Float
  y : Float
  width : Float
  height : Float
deriving Repr, Inhabited

/-- A color; each component lies between zero and one. -/
structure Color where
  r : Float
  g : Float
  b : Float
  a : Float
deriving Repr, Inhabited

/-- A layer of paint.  Only a solid one has a use for its color. -/
structure Paint where
  type : PaintType
  color : Option Color
deriving Repr

structure TypeStyle where
  fontSize : Option Float
  fontWeight : Option Float
deriving Repr, Inhabited

/-! ### Names of the tags -/

def NodeType.ofName : String → NodeType
  | "DOCUMENT" => .document
  | "CANVAS" => .canvas
  | "FRAME" => .frame
  | "GROUP" => .group
  | "SECTION" => .canvasSection
  | "TEXT" => .text
  | "RECTANGLE" => .rectangle
  | "ELLIPSE" => .ellipse
  | "LINE" => .line
  | "VECTOR" => .vector
  | "STAR" => .star
  | "REGULAR_POLYGON" => .regularPolygon
  | "BOOLEAN_OPERATION" => .booleanOperation
  | "COMPONENT" => .component
  | "COMPONENT_SET" => .componentSet
  | "INSTANCE" => .componentInstance
  | "SLICE" => .slice
  | _ => .other

def LayoutMode.ofName : String → LayoutMode
  | "NONE" => .none
  | "HORIZONTAL" => .horizontal
  | "VERTICAL" => .vertical
  | _ => .other

def LayoutAlign.ofName : String → LayoutAlign
  | "INHERIT" => .inherit
  | "STRETCH" => .stretch
  | "MIN" => .min
  | "CENTER" => .center
  | "MAX" => .max
  | _ => .other

def AxisAlign.ofName : String → AxisAlign
  | "MIN" => .min
  | "MAX" => .max
  | "CENTER" => .center
  | "SPACE_BETWEEN" => .spaceBetween
  | "BASELINE" => .baseline
  | _ => .other

def PaintType.ofName : String → PaintType
  | "SOLID" => .solid
  | "GRADIENT_LINEAR" => .gradientLinear
  | "GRADIENT_RADIAL" => .gradientRadial
  | "GRADIENT_ANGULAR" => .gradientAngular
  | "GRADIENT_DIAMOND" => .gradientDiamond
  | "IMAGE" => .image
  | "EMOJI" => .emoji
  | "VIDEO" => .video
  | _ => .other

end DesignMarkup
