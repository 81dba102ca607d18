/-
  DesignMarkup/Page/Styled.lean
  =============================
  **The part of a design that shows, with its styles.**  A styled tree has one element
  for each node that is shown: the node itself is renderable and so are all nodes
  above it, which are containers.  It depends on the design and the coordinates
  alone; how styles and assets are written down is decided later, from this tree.

  `assetsOf` lists the images and icons of a styled tree; `trace` tells what became of
  each node that was looked at.  Both follow the order of the page.
-/
import DesignMarkup.Asset.Manifest
import DesignMarkup.Style.Resolve

namespace DesignMarkup

structure Label where
  id : String
  name : String
  characters : String
deriving DecidableEq, Repr

structure Styled where
  role : Role
  label : Label
  declarations : Declarations
  children : List Styled
deriving Repr

/-- What an element shows of a node with properties `p`. -/
def Props.label (p : Props) : Label := ⟨p.id, p.name, p.characters.getD ""⟩

namespace Node

mutual

/-- The element of a node, if it is shown. -/
def styled? (s : Surroundings) : Node → Option Styled
  | ⟨p, children⟩ =>
    match p.box with
    | none => none
    | some box =>
      if p.isVisible then
        some {
          role := Role.ofProps p
          label := p.label
          declarations := Style.resolve p box (Role.ofProps p) s
          children := if (Role.ofProps p).recurses then styledAll (s.within p) children else [] }
      else none

/-- The elements of those of several nodes that are shown. -/
def styledAll (s : Surroundings) : List Node → List Styled
  | [] => []
  | n :: rest => (styled? s n).toList ++ styledAll s rest

end

mutual

/-- What became of a node and the nodes below it that were looked at. -/
def trace : Node → List Notice
  | ⟨p, children⟩ =>
    if p.isRenderable then
      .nodeEmitted p.id p.name (Role.ofProps p)
        :: if (Role.ofProps p).recurses then traceAll children else []
    else [.nodeSkipped p.id p.name]

/-- What became of several nodes. -/
def traceAll : List Node → List Notice
  | [] => []
  | n :: rest => trace n ++ traceAll rest

end

def content (coordinates : Coordinates) (root : Node) : List Styled :=
  styledAll (.below coordinates root.props) root.children

end Node

/-- The kind of asset that an element of a role refers to. -/
def Role.assetKind? : Role → Option AssetKind
  | .image => some .image
  | .icon => some .icon
  | .text | .container => none

/-- The asset of an element. -/
def assetOf (label : Label) (kind : AssetKind) : Asset := ⟨label.id, label.name, kind⟩

namespace Styled

mutual

/-- The assets of an element, its own before those below it. -/
def assets : Styled → List Asset
  | ⟨role, label, _, children⟩ =>
    (role.assetKind?.map (assetOf label)).toList ++ assetsOfAll children

def assetsOfAll : List Styled → List Asset
  | [] => []
  | e :: rest => assets e ++ assetsOfAll rest

end

end Styled

end DesignMarkup
