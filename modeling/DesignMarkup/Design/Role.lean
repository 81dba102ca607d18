/-
  DesignMarkup/Design/Role.lean
  =============================
  **What a node becomes in markup.**  The role is decided from the node alone: text
  by its type, an image by its paint, an icon by its type and size, and a container
  otherwise.  Only containers show their children.
-/
import DesignMarkup.Design.Node

namespace DesignMarkup

inductive Role where
  | text
  | image
  | icon
  | container
deriving DecidableEq, Repr

namespace Role

/-- The element that stands for a node of this role. -/
def tag : Role → String
  | .text => "p"
  | .image | .icon => "img"
  | .container => "div"

/-- Whether the children of a node of this role are shown. -/
def recurses (role : Role) : Bool := role == .container

/-- A component is an icon when both sides of its box are shorter than this. -/
def iconSize : Float := 80

/-- A vector, or a component of small size. -/
def isIcon (p : Props) : Bool :=
  match p.type with
  | .vector => true
  | .component | .componentInstance =>
    match p.box with
    | some box => box.width < iconSize && box.height < iconSize
    | none => false
  | _ => false

def ofProps (p : Props) : Role :=
  if p.type = .text then .text
  else if p.hasImageFill then .image
  else if isIcon p then .icon
  else .container

end Role

end DesignMarkup
