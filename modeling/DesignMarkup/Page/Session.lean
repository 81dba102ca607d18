/-
  DesignMarkup/Page/Session.lean
  ==============================
  **From a styled tree to markup.**  Styles are written into the elements, or into a
  stylesheet whose classes the elements name.  A session keeps the stylesheet and the
  manifest of all pages made in it, so that pages can share classes.
-/
import DesignMarkup.Markup.Element
import DesignMarkup.Page.Styled
import DesignMarkup.Stylesheet

namespace DesignMarkup

/-- Where the styles of elements are written. -/
inductive StyleMode where
  /-- In a `style` attribute. -/
  | inline
  /-- In a stylesheet, under a class. -/
  | stylesheet
deriving DecidableEq, Repr

structure Options where
  styleMode : StyleMode := .inline
  coordinates : Coordinates := .document
  /-- Addresses of rendered assets by the ids of their nodes. -/
  assetUrls : List (String × String) := []
deriving Repr

open Markup (Attribute Element Fragment)

def rootClass : String := "figma-root"

/-- The address of an asset: the one supplied for its node, or its path. -/
def Options.source (o : Options) (a : Asset) : String :=
  (o.assetUrls.lookup a.id).getD a.ref

/-- The attributes that an element has apart from its style. -/
def Options.ownAttributes (o : Options) (role : Role) (label : Label) : List Attribute :=
  match role with
  | .image =>
    [("src", o.source (assetOf label .image)), ("alt", label.name),
      ("data-figma-name", label.name)]
  | .icon => [("src", o.source (assetOf label .icon)), ("alt", label.name)]
  | .text | .container => []

/-- The attribute for declarations, and the stylesheet after it. -/
def Options.styleAttribute (o : Options) (d : Declarations) (sheet : Stylesheet) :
    List Attribute × Stylesheet :=
  match o.styleMode with
  | .inline => ([("style", d.text)], sheet)
  | .stylesheet =>
    if d.isEmpty then ([], sheet)
    else
      let (name, sheet) := sheet.request d
      ([("class", name.text)], sheet)

/-- The element of a role with given attributes, text and children. -/
def Role.element (role : Role) (attributes : List Attribute) (text : String)
    (children : List Element) : Element :=
  match role with
  | .text => .leaf role.tag attributes text
  | .image | .icon => .void role.tag attributes
  | .container => .branch role.tag attributes children

namespace Styled

mutual

/-- An element as markup, and the stylesheet after it. -/
def markup (o : Options) : Styled → Stylesheet → Element × Stylesheet
  | ⟨role, label, declarations, children⟩, sheet =>
    let (style, sheet) := o.styleAttribute declarations sheet
    let (inner, sheet) := markupAll o children sheet
    (role.element (o.ownAttributes role label ++ style) label.characters inner, sheet)

def markupAll (o : Options) : List Styled → Stylesheet → List Element × Stylesheet
  | [], sheet => ([], sheet)
  | e :: rest, sheet =>
    let (first, sheet) := markup o e sheet
    let (more, sheet) := markupAll o rest sheet
    (first :: more, sheet)

end

end Styled

/-- The stylesheet and the manifest of the pages made so far. -/
structure Session where
  options : Options
  sheet : Stylesheet := .empty
  manifest : Manifest := .empty
deriving Repr

namespace Session

/-- The attributes of the container of a page, and the stylesheet after it. -/
def rootAttributes (o : Options) (d : Declarations) (sheet : Stylesheet) :
    List Attribute × Stylesheet :=
  match o.styleMode with
  | .inline => ([("class", rootClass), ("style", d.text)], sheet)
  | .stylesheet => ([("class", rootClass)], sheet.add rootClass d)

/-- The page of a root, and the session after it. -/
def page (session : Session) (root : Node) : Fragment × Session :=
  let o := session.options
  let content := root.content o.coordinates
  let (attributes, sheet) := rootAttributes o (Style.root root.props) session.sheet
  let (children, sheet) := Styled.markupAll o content sheet
  (⟨attributes, children⟩,
    { session with sheet, manifest := session.manifest.recordAll (Styled.assetsOfAll content) })

end Session

end DesignMarkup
