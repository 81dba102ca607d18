/-
  DesignMarkup/Design/Node.lean
  =============================
  **The design tree.**  A node is what it says of itself, its `Props`, and its
  children in order.  Every property may be absent; a node without a box has no
  place on the page, and one that is explicitly invisible is not shown.

  `Node.find?` is the search that ids are resolved by: depth first, a node before
  its children.
-/
import DesignMarkup.Design.Shape

namespace DesignMarkup

structure Props where
  id : String := ""
  name : String := ""
  type : NodeType := .other
  visible : Option Bool := none
  /-- The box in the coordinates of the document. -/
  box : Option Rect := none
  layoutMode : Option LayoutMode := none
  layoutGrow : Option Float := none
  layoutAlign : Option LayoutAlign := none
  itemSpacing : Option Float := none
  paddingTop : Option Float := none
  paddingRight : Option Float := none
  paddingBottom : Option Float := none
  paddingLeft : Option Float := none
  primaryAlign : Option AxisAlign := none
  counterAlign : Option AxisAlign := none
  fills : List Paint := []
  strokes : List Paint := []
  strokeWeight : Option Float := none
  cornerRadius : Option Float := none
  backgroundColor : Option Color := none
  characters : Option String := none
  style : Option TypeStyle := none
deriving Repr, Inhabited

structure Node where
  props : Props
  children : List Node
deriving Inhabited

namespace Props

/-- All but the nodes that are explicitly hidden. -/
def isVisible (p : Props) : Bool := p.visible != some false

/-- Visible and placed.  Nothing else produces markup. -/
def isRenderable (p : Props) : Bool := p.isVisible && p.box.isSome

/-- Whether the node lays out its children along an axis. -/
def isAutoLayout (p : Props) : Bool :=
  p.layoutMode == some .horizontal || p.layoutMode == some .vertical

/-- The first layer of paint, when it is solid. -/
def solidFirst : List Paint → Option Paint
  | paint :: _ => if paint.type = .solid then some paint else none
  | [] => none

def solidFill (p : Props) : Option Paint := solidFirst p.fills

def solidStroke (p : Props) : Option Paint := solidFirst p.strokes

def hasImageFill (p : Props) : Bool := p.fills.any fun paint => paint.type == .image

/-- The top-left corner of the box. -/
def corner? (p : Props) : Option (Float × Float) := p.box.map fun box => (box.x, box.y)

end Props

namespace Node

def id (n : Node) : String := n.props.id

def name (n : Node) : String := n.props.name

mutual

/-- The first node with the id, depth first and a node before its children. -/
def find? (id : String) : Node → Option Node
  | ⟨props, children⟩ =>
    if props.id = id then some ⟨props, children⟩ else findAmong? id children

/-- The first node with the id in any of several trees. -/
def findAmong? (id : String) : List Node → Option Node
  | [] => none
  | n :: rest => (n.find? id).or (findAmong? id rest)

end

end Node

end DesignMarkup
