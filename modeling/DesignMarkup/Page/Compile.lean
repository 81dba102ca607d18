/-
  DesignMarkup/Page/Compile.lean
  ==============================
  **Converting a design.**  `compileRoot` makes the page of one root in a session of
  its own; `compile` selects the root from a response first.  `emit` makes the markup
  of a single node, with inline styles and in the coordinates of the document.
-/
import DesignMarkup.Design.Response
import DesignMarkup.Page.Session

namespace DesignMarkup

structure Output where
  html : String
  /-- Empty unless the styles are in a stylesheet. -/
  css : String
  /-- The images and icons of the page, in order. -/
  assets : List Asset
deriving DecidableEq, Repr

def compileRoot (root : Node) (o : Options) : Output :=
  let (fragment, session) := Session.page ⟨o, .empty, .empty⟩ root
  ⟨fragment.text, session.sheet.text, session.manifest.entries⟩

/-- What there is to remark on while the page of a root is made. -/
def compileRootNotices (root : Node) (o : Options) : List Notice :=
  Node.traceAll root.children
    ++ (Manifest.empty.recordAll (Styled.assetsOfAll (root.content o.coordinates))).notices

/-- The page of the node that `raw` names, or of the first page. -/
def compile (r : Response) (raw : Option String) (o : Options) : Except SelectError Output :=
  (r.select raw).map fun root => compileRoot root o

/-- What there is to remark on in a conversion. -/
def compileNotices (r : Response) (raw : Option String) (o : Options) : List Notice :=
  r.selectNotices raw
    ++ match r.select raw with
      | .ok root => compileRootNotices root o
      | .error _ => []

/-- The markup of a single node; nothing if it is not shown. -/
def emit (n : Node) (parentAutoLayout : Bool) : String :=
  let shown := (n.styled? (.document parentAutoLayout)).toList
  Markup.elementsText 0 (Styled.markupAll {} shown .empty).1

end DesignMarkup
