/-
  DesignMarkup/Style/Color.lean
  =============================
  **Lengths and colors as style values.**
-/
import DesignMarkup.Design.Shape
import DesignMarkup.Number.Notation

namespace DesignMarkup

def px (x : Float) : String := cssText x ++ "px"

namespace Color

/-- A component of a color on the scale from 0 to 255, rounded. -/
def channel (v : Float) : Int := roundToWord (v * 255)

def css (c : Color) : String :=
  "rgba(" ++ toString (channel c.r) ++ ", " ++ toString (channel c.g) ++ ", "
    ++ toString (channel c.b) ++ ", " ++ cssText c.a ++ ")"

def css? : Option Color → String
  | some c => c.css
  | none => "transparent"

end Color

end DesignMarkup
