/-
  DesignMarkup/Style/Resolve.lean
  ===============================
  **The declarations of a node.**  They come in a fixed order: where the node is and
  how large, how it lays out its children, its background, border and corners, and
  its font.  Each group is a list of its own, decided once from the node, its role
  and its surroundings; a property is never set and then taken back.

  `Style.root` is the same for the container of the whole page.
-/
import DesignMarkup.Design.Role
import DesignMarkup.Style.Color
import DesignMarkup.Style.Declarations
import DesignMarkup.Style.Placement

namespace DesignMarkup

/-- The value of `justify-content` and `align-items`.  What is unknown gathers at the
    start. -/
def AxisAlign.css : Option AxisAlign → String
  | some .max => "flex-end"
  | some .center => "center"
  | some .spaceBetween => "space-between"
  | _ => "flex-start"

/-- A list with one item, or none. -/
def whenSome {α β : Type} (o : Option α) (f : α → β) : List β := (o.map f).toList

/-- The number unless it is absent or zero. -/
def nonZero (x : Option Float) : Option Float := x.filter fun x => !(x == 0)

namespace Style

/-- The font size of a text that gives none. -/
def defaultFontSize : Float := 16

/-- The font weight of a text that gives none. -/
def defaultFontWeight : Float := 400

def size (box : Rect) : List (String × String) :=
  [("width", px box.width), ("height", px box.height)]

/-- Padding as top, right, bottom and left; a side not given is zero. -/
def padding (p : Props) : List Float :=
  [p.paddingTop.getD 0, p.paddingRight.getD 0, p.paddingBottom.getD 0, p.paddingLeft.getD 0]

/-- Position and size. -/
def place (p : Props) (box : Rect) (role : Role) (s : Surroundings) : List (String × String) :=
  match Placement.of p s with
  | .flexItem =>
    (if p.layoutGrow.any (· == 1) then [("flex-grow", "1")] else [])
      ++ (if p.layoutAlign = some .stretch then [("align-self", "stretch")] else size box)
      ++ (if s.coordinates = .relative ∧ role = .container ∧ p.isAutoLayout = false then
            [("position", "relative")]
          else [])
  | .absolute =>
    [("position", "absolute"), ("left", px (box.x - s.reference.1)),
      ("top", px (box.y - s.reference.2))] ++ size box
  | .sized => size box

def flex (p : Props) : List (String × String) :=
  [("display", "flex"),
    ("flex-direction", if p.layoutMode = some .horizontal then "row" else "column")]
    ++ whenSome (nonZero p.itemSpacing) (fun gap => ("gap", px gap))
    ++ [("padding", " ".intercalate ((padding p).map px)),
      ("justify-content", AxisAlign.css p.primaryAlign),
      ("align-items", AxisAlign.css p.counterAlign)]

/-- The layout of the children of a node that has one. -/
def flexOf (p : Props) : List (String × String) := if p.isAutoLayout then flex p else []

/-- Background, border and corners. -/
def decoration (p : Props) (role : Role) : List (String × String) :=
  (if role = .container then
      whenSome p.solidFill fun fill => ("background-color", Color.css? fill.color)
    else [])
    ++ whenSome p.solidStroke (fun stroke =>
        ("border", cssText ((nonZero p.strokeWeight).getD 1) ++ "px solid "
          ++ Color.css? stroke.color))
    ++ whenSome (nonZero p.cornerRadius) fun radius => ("border-radius", px radius)

/-- Size, weight and color of the font. -/
def font (p : Props) : List (String × String) :=
  [("font-size", px ((p.style.bind (·.fontSize)).getD defaultFontSize)),
    ("font-weight", cssText ((p.style.bind (·.fontWeight)).getD defaultFontWeight))]
    ++ whenSome p.solidFill fun fill => ("color", Color.css? fill.color)

/-- The declarations of a node with the given box, role and surroundings. -/
def resolve (p : Props) (box : Rect) (role : Role) (s : Surroundings) : Declarations :=
  Declarations.ofList
    (place p box role s ++ flexOf p ++ decoration p role
      ++ if role = .text then font p else [])

/-- The background of the page: the fill of the root, then its background color, then
    white. -/
def rootBackground (p : Props) : String :=
  match p.solidFill, p.backgroundColor with
  | some fill, _ => Color.css? fill.color
  | none, some color => color.css
  | none, none => "rgba(255, 255, 255, 1)"

/-- The declarations of the container of the page. -/
def root (p : Props) : Declarations :=
  Declarations.ofList
    ([("position", "relative"), ("overflow", "hidden"), ("background", rootBackground p)]
      ++ (match p.box with
          | some box => size box ++ [("margin", "20px auto")]
          | none => [])
      ++ flexOf p)

end Style

end DesignMarkup
