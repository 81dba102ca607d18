/-
  DesignMarkup/Api/Network.lean
  =============================
  **Requests and what answers them.**  A network is a function from requests to
  replies; a request may go unanswered.  Two networks are given here: one where a
  single server answers from a table, and one where nothing answers.
-/
import DesignMarkup.Api.Url
import DesignMarkup.Text.Utf8

namespace DesignMarkup

structure Request where
  url : Url
  /-- The access token, if one is sent. -/
  token : Option String
  /-- The program that asks. -/
  agent : String
deriving DecidableEq, Repr

structure Reply where
  status : Nat
  body : ByteArray

/-- Whether the request was granted. -/
def Reply.isSuccess (r : Reply) : Bool := 200 ≤ r.status && r.status < 300

/-- The body as text, whatever its bytes are. -/
def Reply.text (r : Reply) : String := Text.ofBytes r.body

abbrev Network := Request → Option Reply

namespace Network

/-- Nothing answers. -/
def silent : Network := fun _ => none

/-- The server at `authority` answers from a table of targets; it does not know any
    other target.  No other server answers. -/
def ofTable (authority : String) (table : List (String × Reply)) : Network := fun r =>
  if r.url.authority = some authority then
    some ((table.lookup r.url.target).getD ⟨404, "no route".toUTF8⟩)
  else none

end Network

end DesignMarkup
