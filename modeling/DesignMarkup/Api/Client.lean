/-
  DesignMarkup/Api/Client.lean
  ============================
  **The client of the design service.**  It knows the addresses of the service, sends
  requests with the access token, and reads the responses: documents, the addresses
  of rendered images, and the images themselves, which are fetched without the token.
-/
import DesignMarkup.Api.Work
import DesignMarkup.Design.OfText

namespace DesignMarkup

structure ClientConfig where
  token : String
  base : String
deriving DecidableEq, Repr

def publicBase : String := "https://api.figma.com"

/-- The name under which the program sends requests. -/
def userAgent : String := "figml/0.3.0"

inductive ImageFormat where
  | png
  | svg
deriving DecidableEq, Repr

def ImageFormat.name : ImageFormat → String
  | .png => "png"
  | .svg => "svg"

namespace ClientConfig

/-- The address of the service without slashes at its end. -/
def trimmedBase (c : ClientConfig) : String :=
  String.ofList (c.base.toList.reverse.dropWhile (· == '/')).reverse

/-- The address of a file, or of one node of it. -/
def fileUrl (c : ClientConfig) (fileKey : String) (node : Option String) : String :=
  c.trimmedBase ++ "/v1/files/" ++ fileKey ++
    match node with
    | some id => "/nodes?ids=" ++ Text.Percent.encode id
    | none => ""

/-- The address that asks for nodes to be rendered. -/
def imagesUrl (c : ClientConfig) (fileKey : String) (ids : List String) (format : ImageFormat) :
    String :=
  c.trimmedBase ++ "/v1/images/" ++ fileKey ++ "?ids="
    ++ ",".intercalate (ids.map Text.Percent.encode) ++ "&format=" ++ format.name

end ClientConfig

inductive RequestError where
  /-- The address or the token has no valid form. -/
  | malformed
  /-- No request can be sent to an address of this kind. -/
  | unsupported (url : Url)
  /-- Nothing answered. -/
  | unanswered (url : Url)
deriving DecidableEq, Repr

def RequestError.message : RequestError → String
  | .malformed => "builder error"
  | .unsupported url => "builder error for url (" ++ url.text ++ ")"
  | .unanswered url => "error sending request for url (" ++ url.text ++ ")"

inductive ClientError where
  | http (e : RequestError)
  /-- The service refused the request. -/
  | status (code : Nat) (body : String)
  /-- The service reports an error in its response. -/
  | api (text : String)
  | parse (e : Json.ParseError)
  | io (path : String) (e : FileError)

def ClientError.message : ClientError → String
  | .http e => "HTTP request failed: " ++ e.message
  | .status code body => "Design API returned " ++ toString code ++ ": " ++ body
  | .api text => "Design API error: " ++ text
  | .parse e => e.message
  | .io path e => "Failed to write " ++ path ++ ": " ++ e.message

/-! ### The response to a request for images -/

/-- The response to a request for images: an error, and addresses by ids, null where
    an image could not be rendered. -/
structure ImagesResponse where
  err : Option String
  images : List (String × Option String)

inductive ImagesField where
  | err | images
deriving DecidableEq, Repr

open Json (Reader)

def ImagesResponse.schema (fuel : Nat) : Json.Schema Notice ImagesField ImagesResponse where
  name := "ImagesResponse"
  fields := [.err, .images]
  fieldName
    | .err => "err"
    | .images => "images"
  fieldOf? key :=
    match key with
    | "err" => some .err
    | "images" => some .images
    | _ => none
  required _ := false
  read field r :=
    match field with
    | .err => do
      let err ← Reader.optional (Reader.string fuel)
      return { r with err }
    | .images => do
      let images ← Reader.map fuel (Reader.optional (Reader.string fuel))
      return { r with images }

/-- Read a text that is a response to a request for images. -/
def ImagesResponse.parse (text : String) : Except Json.ParseError ImagesResponse :=
  (Reader.run (fun fuel => Reader.record fuel (schema fuel) ⟨none, []⟩) text).1

def ImagesResponse.rendered (r : ImagesResponse) : List (String × String) :=
  r.images.filterMap fun entry => entry.2.map fun url => (entry.1, url)

def collectImages (body : String) : Except ClientError (List (String × String)) :=
  match ImagesResponse.parse body with
  | .error e => .error (.parse e)
  | .ok r =>
    match r.err with
    | some text => .error (.api text)
    | none => .ok r.rendered

/-! ### Requests -/

namespace Client

/-- Whether a text can be sent as the value of a header. -/
def isHeaderValue (text : String) : Bool :=
  text.toList.all fun c => (0x20 ≤ c.toNat || c == '\t') && c.toNat != 0x7F

def request (address : String) (token : Option String) : Except RequestError Request :=
  match Url.parse? address with
  | none => .error .malformed
  | some url =>
    if url.authority.isNone then .error (.unsupported url)
    else if !token.all isHeaderValue then .error .malformed
    else if url.isHttp then .ok ⟨url, token, userAgent⟩
    else .error (.unsupported url)

def get (network : Network) (address : String) (token : Option String) : Work ClientError Reply := do
  match request address token with
  | .error e => throw (.http e)
  | .ok r =>
    match ← Work.ask network r with
    | none => throw (.http (.unanswered r.url))
    | some reply =>
      if reply.isSuccess then return reply
      else throw (.status reply.status reply.text)

def fetch (network : Network) (c : ClientConfig) (fileKey : String) (node : Option String) :
    Work ClientError Response := do
  Work.note (node.elim [] NodeId.notices)
  let url := c.fileUrl fileKey (node.map NodeId.normalize)
  Work.note [.fetching url]
  let reply ← get network url (some c.token)
  let (result, notices) := Response.parse reply.text
  Work.note notices
  match result with
  | .ok response => return response
  | .error e => throw (.parse e)

/-- What there is to remark on when `images` came for `ids`. -/
def unrenderedNotice (ids : List String) (images : List (String × String)) : List Notice :=
  if images.length < ids.length then [.unrendered (ids.length - images.length) ids.length] else []

/-- Have nodes rendered, and get the addresses of the images by the ids of the nodes. -/
def resolveImages (network : Network) (c : ClientConfig) (fileKey : String) (ids : List String)
    (format : ImageFormat) : Work ClientError (List (String × String)) := do
  if ids.isEmpty then return []
  Work.note [.resolving ids.length format.name]
  let reply ← get network (c.imagesUrl fileKey ids format) (some c.token)
  let images ← Work.ofExcept (collectImages reply.text)
  Work.note (unrenderedNotice ids images)
  return images

/-- Download an address into a file, making its directories. -/
def download (network : Network) (address path : String) : Work ClientError Unit := do
  let reply ← get network address none
  match Path.parent? path with
  | some parent =>
    let w ← MonadState.get
    let (result, files) := FileTree.makeDirectories (path.length + 1) parent w.files
    set { w with files }
    match result with
    | .error e => throw (.io path e)
    | .ok () => pure ()
  | none => pure ()
  let w ← MonadState.get
  match w.files.write path reply.body with
  | .error e => throw (.io path e)
  | .ok files =>
    set { w with files }
    Work.note [.fileWritten path reply.body.size]

end Client

end DesignMarkup
