/-
  DesignMarkup/Design/NodeId.lean
  ===============================
  **Node ids as people write them.**  An id has the form `a:b`.  Copied from the
  address bar of a browser it arrives percent-encoded, or with a dash in the place of
  the colon.  `NodeId.normalize` brings these back to the one form: white space at
  the ends is dropped, percent escapes are undone, and the first dash becomes a colon
  when there is no colon.
-/
import DesignMarkup.Notice
import DesignMarkup.Text.Blank
import DesignMarkup.Text.Percent

namespace DesignMarkup.NodeId

/-- The text with its first dash turned into a colon. -/
def colonForDash : List Char → List Char
  | [] => []
  | c :: rest => if c = '-' then ':' :: rest else c :: colonForDash rest

/-- The text without white space at its ends and percent escapes.  Escapes that
    yield no text are left as they are. -/
def plain (raw : String) : String :=
  let trimmed := Text.trim raw
  (Text.Percent.decode? trimmed).getD trimmed

/-- Whether a dash stands where the colon should. -/
def isDashed (id : String) : Bool := id.toList.contains '-' && !id.toList.contains ':'

/-- The id that `raw` means. -/
def normalize (raw : String) : String :=
  let id := plain raw
  if isDashed id then String.ofList (colonForDash id.toList) else id

/-- What there is to remark on when `raw` is normalized. -/
def notices (raw : String) : List Notice :=
  let id := plain raw
  if isDashed id then [.dashedId id] else []

end DesignMarkup.NodeId
