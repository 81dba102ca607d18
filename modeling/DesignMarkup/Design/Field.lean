/-
  DesignMarkup/Design/Field.lean
  ==============================
  **The fields of a node and their names.**  A node is written as an object under
  these names or as an array in this order.  The box has a second, shorter name.
-/
import DesignMarkup.Design.Node

namespace DesignMarkup

inductive Field where
  | id | name | type | visible | box
  | layoutMode | layoutGrow | layoutAlign | itemSpacing
  | paddingTop | paddingRight | paddingBottom | paddingLeft
  | primaryAlign | counterAlign
  | fills | strokes | strokeWeight | cornerRadius | backgroundColor
  | characters | style | children
deriving DecidableEq, Repr

namespace Field

/-- All fields, in the order of the array form. -/
def all : List Field :=
  [.id, .name, .type, .visible, .box, .layoutMode, .layoutGrow, .layoutAlign, .itemSpacing,
   .paddingTop, .paddingRight, .paddingBottom, .paddingLeft, .primaryAlign, .counterAlign,
   .fills, .strokes, .strokeWeight, .cornerRadius, .backgroundColor, .characters, .style,
   .children]

def key : Field → String
  | .id => "id"
  | .name => "name"
  | .type => "type"
  | .visible => "visible"
  | .box => "absoluteBoundingBox"
  | .layoutMode => "layoutMode"
  | .layoutGrow => "layoutGrow"
  | .layoutAlign => "layoutAlign"
  | .itemSpacing => "itemSpacing"
  | .paddingTop => "paddingTop"
  | .paddingRight => "paddingRight"
  | .paddingBottom => "paddingBottom"
  | .paddingLeft => "paddingLeft"
  | .primaryAlign => "primaryAxisAlignItems"
  | .counterAlign => "counterAxisAlignItems"
  | .fills => "fills"
  | .strokes => "strokes"
  | .strokeWeight => "strokeWeight"
  | .cornerRadius => "cornerRadius"
  | .backgroundColor => "backgroundColor"
  | .characters => "characters"
  | .style => "style"
  | .children => "children"

/-- The second name of the box. -/
def shortBoxKey : String := "boundingBox"

def ofKey? (key : String) : Option Field :=
  if key = shortBoxKey then some .box else all.find? fun f => f.key == key

end Field

end DesignMarkup
