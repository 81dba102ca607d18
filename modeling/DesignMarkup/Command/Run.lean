/-
  DesignMarkup/Command/Run.lean
  =============================
  **What each command does.**  `build` converts a saved response into a page next to
  it; `check` converts one and writes nothing; `fetch` gets the response from the
  service first and can resolve or download the assets of the page.  Each is work on
  the outside world that ends early at the first failure.

  `run` reads a command line, does the work, and tells the exit code, what was
  printed and what became of the world.
-/
import DesignMarkup.Api.Client
import DesignMarkup.Command.Arguments
import DesignMarkup.Command.LogFilter
import DesignMarkup.Command.LogLine
import DesignMarkup.Page.Standalone
import DesignMarkup.Text.Ascending

namespace DesignMarkup.Command

inductive Failure where
  | missingFile (path : String)
  | unreadable (path : String) (e : FileError)
  | badSource (path : String) (e : Json.ParseError)
  | badAssetMap (path : String) (e : Json.ParseError)
  | selection (e : SelectError)
  | client (e : ClientError)
  | unwritable (path : String) (e : FileError)

/-- An error in a map of assets, its place after it. -/
def placedMessage (e : Json.ParseError) : String :=
  e.text ++ " at line " ++ toString e.position.line ++ " column " ++ toString e.position.column

def Failure.message : Failure → String
  | .missingFile path => "file not found: " ++ path
  | .unreadable path e => "reading " ++ path ++ ": " ++ e.message
  | .badSource path e => path ++ ": " ++ e.message
  | .badAssetMap path e => path ++ ": " ++ placedMessage e
  | .selection e => e.message
  | .client e => e.message
  | .unwritable path e => "writing " ++ path ++ ": " ++ e.message

abbrev Job := Work Failure

/-! ### Reading and converting -/

def readSource (path : String) : Job String := do
  let w ← get
  if w.files.isPresent path then
    match w.files.readText path with
    | .ok text => return text
    | .error e => throw (.unreadable path e)
  else throw (.missingFile path)

def readResponse (path : String) : Job Response := do
  let text ← readSource path
  let (result, notices) := Response.parse text
  Work.note notices
  match result with
  | .ok response => return response
  | .error e => throw (.badSource path e)

/-- Read a text that maps ids to addresses. -/
def parseAssetMap (text : String) : Except Json.ParseError (List (String × String)) :=
  (Json.Reader.run (ν := Notice) (fun fuel => Json.Reader.map fuel (Json.Reader.string fuel)) text).1

def readAssetMap (path : String) : Job (List (String × String)) := do
  let text ← readSource path
  match parseAssetMap text with
  | .ok urls => return urls
  | .error e => throw (.badAssetMap path e)

def convert (r : Response) (node : Option String) (o : Options) : Job Output := do
  Work.note (compileNotices r node o)
  match compile r node o with
  | .ok output => return output
  | .error e => throw (.selection e)

def Choices.options (c : Choices) (assetUrls : List (String × String)) : Options where
  styleMode := if c.stylesheet then .stylesheet else .inline
  coordinates := if c.relative then .relative else .document
  assetUrls

/-! ### Writing -/

def writeFile (path text : String) : Job Unit := do
  let w ← get
  match w.files.write path text.toUTF8 with
  | .ok files => set { w with files }
  | .error e => throw (.unwritable path e)

/-- The stylesheet of a page stands next to it. -/
def stylesheetPath (page : String) : String := Path.withExtension page "css"

/-- Write the page and, if there is one, its stylesheet. -/
def writeOutput (path : String) (output : Output) (title : String) : Job Unit := do
  writeFile path (output.page title)
  if output.css ≠ "" then writeFile (stylesheetPath path) output.css
  Work.print ("Built: " ++ path)

/-- The title chosen, or that of the document, or `fallback`. -/
def Choices.pageTitle (c : Choices) (r : Response) (fallback : String) : String :=
  (c.title.or r.name).getD fallback

/-! ### The commands -/

/-- The name of a source without its extension. -/
def sourceStem (path : String) : String := (Path.stem? path).getD "design"

/-- Where the page of a source goes by default: next to it. -/
def defaultPage (path : String) : String :=
  Path.within ((Path.parent? path).getD ".") (sourceStem path ++ ".html")

def buildPage (path : String) (c : Choices) (assetMap : Option String) : Job Unit := do
  let response ← readResponse path
  let assetUrls ←
    match assetMap with
    | some mapPath => readAssetMap mapPath
    | none => pure []
  let output ← convert response c.node (c.options assetUrls)
  writeOutput (c.output.getD (defaultPage path)) output (c.pageTitle response (sourceStem path))

def checkSource (path : String) (node : Option String) : Job Unit := do
  let response ← readResponse path
  let output ← convert response node {}
  Work.print ("OK: " ++ path ++ " (" ++ toString output.html.utf8ByteSize ++ " bytes of HTML, "
    ++ toString output.assets.length ++ " asset(s))")

/-- The ids of the assets of a kind, ascending and each once. -/
def assetIds (assets : List Asset) (kind : AssetKind) : List String :=
  Text.ascending ((assets.filter fun a => a.kind == kind).map fun a => a.id)

/-- Put the members of a map into another, in the place of those with the same key. -/
def mergeUrls (urls more : List (String × String)) : List (String × String) :=
  more.foldl (fun urls entry => Json.insertMember entry.1 entry.2 urls) urls

/-- The addresses of all assets: of the images first, then of the icons. -/
def resolveAssets (network : Network) (config : ClientConfig) (fileKey : String)
    (assets : List Asset) : Job (List (String × String)) := do
  let images ← Work.orElseFail .client
    (Client.resolveImages network config fileKey (assetIds assets .image) .png)
  let icons ← Work.orElseFail .client
    (Client.resolveImages network config fileKey (assetIds assets .icon) .svg)
  return mergeUrls (mergeUrls [] images) icons

/-- Drop every `./` from the front of a path. -/
def dropDotSlashes : List Char → List Char
  | '.' :: '/' :: rest => dropDotSlashes rest
  | text => text

/-- Where an asset is downloaded to, the page being in `directory`. -/
def downloadPath (directory : String) (a : Asset) : String :=
  Path.within directory (String.ofList (dropDotSlashes a.ref.toList))

/-- Download the assets that have an address, in order. -/
def downloadEach (network : Network) (urls : List (String × String)) (directory : String) :
    List Asset → Job Unit
  | [] => pure ()
  | a :: rest => do
    match urls.lookup a.id with
    | none => Work.note [.assetWithoutUrl a.id a.name]
    | some url =>
      Work.orElseFail .client (Client.download network url (downloadPath directory a))
    downloadEach network urls directory rest

def downloadAssets (network : Network) (urls : List (String × String)) (directory : String)
    (assets : List Asset) : Job Unit := do
  downloadEach network urls directory assets
  Work.print ("Downloaded " ++ toString assets.length ++ " asset(s)")

def fetchPage (network : Network) (config : ClientConfig) (fileKey : String) (c : Choices)
    (mode : AssetMode) : Job Unit := do
  let response ← Work.orElseFail .client (Client.fetch network config fileKey c.node)
  let first ← convert response c.node (c.options [])
  let page := c.output.getD (fileKey ++ ".html")
  let output ←
    match mode with
    | .paths => pure first
    | .remote => do
      let urls ← resolveAssets network config fileKey first.assets
      convert response c.node (c.options urls)
    | .download => do
      let urls ← resolveAssets network config fileKey first.assets
      downloadAssets network urls ((Path.parent? page).getD ".") first.assets
      pure first
  writeOutput page output (c.pageTitle response fileKey)

def job (network : Network) : Command → Job Unit
  | .build path c assetMap => buildPage path c assetMap
  | .fetch fileKey token base c mode => fetchPage network ⟨token, base⟩ fileKey c mode
  | .check path node => checkSource path node

/-- The paths that a command reads or writes, assets apart. -/
def paths : Command → List String
  | .build path c assetMap =>
    let page := c.output.getD (defaultPage path)
    [path, page, stylesheetPath page] ++ assetMap.toList
  | .fetch fileKey _ _ c _ =>
    let page := c.output.getD (fileKey ++ ".html")
    [page, stylesheetPath page]
  | .check path _ => [path]

def Invocation.paths : Invocation → List String
  | .run _ command => command.paths
  | .help | .version | .invalid => []

/-! ### The program -/

def versionText : String := "figml 0.3.0\n"

def helpText : String :=
  "Convert design documents to HTML\n\nUsage: figml [OPTIONS] <COMMAND>\n\nCommands:\n"
    ++ "  build  Convert a saved design API response to HTML\n"
    ++ "  fetch  Fetch a document from the design API and convert it\n"
    ++ "  check  Check that a saved response converts without errors\n"
    ++ "  help   Print this message\n\nOptions:\n"
    ++ "  -v, --verbose  More log output (-v debug, -vv trace). RUST_LOG overrides\n"
    ++ "  -h, --help     Print help\n  -V, --version  Print version\n"

/-- What is printed about a command line that makes no sense. -/
def usageText : String := "error: invalid arguments\n\nFor more information, try '--help'.\n"

/-- The filter that the number of `-v` asks for. -/
def verbosityFilter (verbosity : Nat) : LogFilter :=
  match verbosity with
  | 0 => .upTo 2
  | 1 => .upTo 4
  | _ => .upTo 5

/-- The filter in force, and what is wrong with its specification. -/
def logFilter (env : List (String × String)) (verbosity : Nat) : LogFilter × List String :=
  match env.lookup "RUST_LOG" with
  | some spec => LogFilter.read spec
  | none => (verbosityFilter verbosity, [])

/-- A line as it is printed; nothing for a notice that is not shown. -/
def lineText (filter : LogFilter) (style : LogStyle) : Line → String
  | .notice n => if filter.shows n then noticeText style n else ""
  | .plain text => text ++ "\n"

structure Log where
  filter : LogFilter
  style : LogStyle
  /-- What is wrong with the specification of the filter. -/
  mistakes : List String

/-- The log that the environment and the number of `-v` ask for. -/
def Log.ofEnvironment (env : List (String × String)) (verbosity : Nat) : Log :=
  let (filter, mistakes) := logFilter env verbosity
  { filter, mistakes, style := .ofEnvironment env }

/-- Everything printed, the mistakes first. -/
def Log.text (log : Log) (lines : List Line) : String :=
  String.join (log.mistakes.map fun mistake => "warning: " ++ mistake ++ ", ignoring it\n")
    ++ String.join (lines.map (lineText log.filter log.style))

structure Ending where
  exitCode : Nat
  stdout : String
  stderr : String
  world : World

/-- The end of a command that was carried out. -/
def finish (log : Log) (exitCode : Nat) (w : World) : Ending where
  exitCode
  stdout := ""
  stderr := log.text w.lines
  world := w

def perform (log : Log) (network : Network) (command : Command) (files : FileTree) : Ending :=
  match job network command { files } with
  | .ok () w => finish log 0 w
  | .error failure w =>
    finish log 1 { w with lines := w.lines ++ [.plain ("Error: " ++ failure.message)] }

def run (args : List String) (env : List (String × String)) (network : Network)
    (files : FileTree) : Ending :=
  match readInvocation env publicBase args {} with
  | .run verbosity command => perform (.ofEnvironment env verbosity) network command files
  | .help => ⟨0, helpText, "", { files }⟩
  | .version => ⟨0, versionText, "", { files }⟩
  | .invalid => ⟨2, "", usageText, { files }⟩

end DesignMarkup.Command
