/-
  DesignMarkup/Design/Response.lean
  =================================
  **Responses of the design service.**  A response for a file carries the whole
  document; a response for some nodes carries their sub-trees under their ids, and
  null for an id that does not exist.  `Response.select` finds the node to start from,
  in either.
-/
import DesignMarkup.Design.NodeId

namespace DesignMarkup

structure Response where
  name : Option String
  document : Option Node
  /-- The requested sub-trees under their ids, in ascending order of ids. -/
  nodes : Option (List (String × Option Node))
deriving Inhabited

inductive SelectError where
  | notFound (id : String)
  | emptyDocument
deriving DecidableEq, Repr

def SelectError.message : SelectError → String
  | .notFound id => "Node '" ++ id ++ "' not found in the design response"
  | .emptyDocument => "Design document has no page to render"

namespace Response

/-- The sub-tree with an id: what was requested under it, and failing that the first
    such node of the document. -/
def lookup (r : Response) (id : String) : Option Node :=
  match r.nodes.bind fun nodes => nodes.lookup id with
  | some entry => entry
  | none => r.document.bind fun document => document.find? id

def firstPage (r : Response) : Option Node :=
  r.document.bind fun document => document.children.head?

/-- The node that `raw` names, or the first page when it names none. -/
def select (r : Response) (raw : Option String) : Except SelectError Node :=
  match raw with
  | some raw =>
    match r.lookup (NodeId.normalize raw) with
    | some n => .ok n
    | none => .error (.notFound (NodeId.normalize raw))
  | none =>
    match r.firstPage with
    | some page => .ok page
    | none => .error .emptyDocument

/-- What there is to remark on in a selection. -/
def selectNotices (r : Response) (raw : Option String) : List Notice :=
  match raw with
  | some raw => NodeId.notices raw ++ [.nodeSelected (NodeId.normalize raw)]
  | none =>
    match r.firstPage with
    | some page => [.pageSelected page.name]
    | none => []

end Response

end DesignMarkup
