/-
  DesignMarkup/Command/Arguments.lean
  ===================================
  **The command line as it is typed.**  Arguments are read from left to right.  Two
  dashes introduce a long option, one dash a cluster of short ones, two dashes alone
  end the options.  A value follows its option as the next argument, or in the same
  argument after an equals sign or a short letter.  A value that is an argument of
  its own must not look like an option.

  An option that asks for help or for the version stops the reading where it stands;
  so does the first mistake.
-/

namespace DesignMarkup

namespace Command

/-- What becomes of image and icon references when a document is fetched. -/
inductive AssetMode where
  /-- They stay relative paths. -/
  | paths
  /-- They become the addresses of the rendered images. -/
  | remote
  /-- The images are downloaded next to the page. -/
  | download
deriving DecidableEq, Repr

/-- The choices that building and fetching share. -/
structure Choices where
  node : Option String := none
  stylesheet : Bool := false
  relative : Bool := false
  output : Option String := none
  title : Option String := none
deriving DecidableEq, Repr

end Command

inductive Command where
  /-- Convert a saved response. -/
  | build (path : String) (choices : Command.Choices) (assetMap : Option String)
  /-- Fetch a document and convert it. -/
  | fetch (fileKey token base : String) (choices : Command.Choices) (assets : Command.AssetMode)
  /-- Check that a saved response converts. -/
  | check (path : String) (node : Option String)
deriving DecidableEq, Repr

namespace Command

inductive Invocation where
  | run (verbosity : Nat) (command : Command)
  | help
  | version
  | invalid
deriving DecidableEq, Repr

inductive Verb where
  | build
  | fetch
  | check
deriving DecidableEq, Repr

inductive Flag where
  | verbose
  | help
  | version
  | stylesheet
  | relative
deriving DecidableEq, Repr

inductive Setting where
  | node
  | output
  | title
  | assetMap
  | fileKey
  | token
  | base
  | assets
deriving DecidableEq, Repr

inductive Opt where
  | flag (f : Flag)
  | setting (s : Setting)
deriving DecidableEq, Repr

/-! ### Which options there are -/

def Verb.ofName? : String → Option Verb
  | "build" => some .build
  | "fetch" => some .fetch
  | "check" => some .check
  | _ => none

def Verb.settings : Verb → List (String × Setting)
  | .build =>
    [("node", .node), ("output", .output), ("title", .title), ("asset-urls", .assetMap)]
  | .fetch =>
    [("node", .node), ("output", .output), ("title", .title), ("file-key", .fileKey),
      ("token", .token), ("api-base", .base), ("assets", .assets)]
  | .check => [("node", .node)]

def Verb.flags : Verb → List (String × Flag)
  | .build | .fetch => [("stylesheet", .stylesheet), ("relative", .relative)]
  | .check => []

/-- The long option of a command, or of the program itself, with a name. -/
def longOption? (verb : Option Verb) (name : String) : Option Opt :=
  if name = "verbose" then some (.flag .verbose)
  else if name = "help" then some (.flag .help)
  else
    match verb with
    | none => if name = "version" then some (.flag .version) else none
    | some verb =>
      match verb.settings.lookup name with
      | some s => some (.setting s)
      | none => (verb.flags.lookup name).map .flag

/-- The short option with a letter. -/
def shortOption? (verb : Option Verb) (letter : Char) : Option Opt :=
  if letter = 'v' then some (.flag .verbose)
  else if letter = 'h' then some (.flag .help)
  else
    match verb with
    | none => if letter = 'V' then some (.flag .version) else none
    | some .build | some .fetch => if letter = 'o' then some (.setting .output) else none
    | some .check => none

/-! ### Reading -/

inductive Stop where
  | help
  | version
  | invalid
deriving DecidableEq, Repr

structure Given where
  verbosity : Nat := 0
  flags : List Flag := []
  settings : List (Setting × String) := []
  operands : List String := []
deriving DecidableEq, Repr

namespace Given

/-- A flag is given.  All but the one that counts may be given once. -/
def flag (g : Given) (f : Flag) : Except Stop Given :=
  match f with
  | .verbose => .ok { g with verbosity := g.verbosity + 1 }
  | .help => .error .help
  | .version => .error .version
  | f => if g.flags.contains f then .error .invalid else .ok { g with flags := f :: g.flags }

def assetMode? : String → Option AssetMode
  | "paths" => some .paths
  | "remote" => some .remote
  | "download" => some .download
  | _ => none

/-- A setting is given; this may be once. -/
def setting (g : Given) (s : Setting) (value : String) : Except Stop Given :=
  if (g.settings.lookup s).isSome then .error .invalid
  else if s = .assets ∧ assetMode? value = none then .error .invalid
  else .ok { g with settings := (s, value) :: g.settings }

/-- An operand is given; there may be at most `limit`. -/
def operand (g : Given) (limit : Nat) (value : String) : Except Stop Given :=
  if g.operands.length < limit then .ok { g with operands := g.operands ++ [value] }
  else .error .invalid

end Given

def Verb.operandLimit : Verb → Nat
  | .build | .check => 1
  | .fetch => 0

/-- How a cluster of short options ends: with nothing open, or with a setting whose
    value is the next argument. -/
inductive ClusterEnd where
  | closed (g : Given)
  | awaiting (s : Setting) (g : Given)

def readCluster (verb : Option Verb) : List Char → Given → Except Stop ClusterEnd
  | [], g => .ok (.closed g)
  | letter :: rest, g =>
    match shortOption? verb letter with
    | none => .error .invalid
    | some (.flag f) => do readCluster verb rest (← g.flag f)
    | some (.setting s) =>
      match rest with
      | [] => .ok (.awaiting s g)
      | '=' :: value => do return .closed (← g.setting s (String.ofList value))
      | value => do return .closed (← g.setting s (String.ofList value))

inductive Argument where
  | endOfOptions
  /-- A long option and the value after its equals sign. -/
  | long (name : String) (value : Option String)
  | cluster (letters : List Char)
  | operand (text : String)

def classify (arg : String) : Argument :=
  match arg.toList with
  | ['-', '-'] => .endOfOptions
  | '-' :: '-' :: text =>
    match text.dropWhile (· ≠ '=') with
    | _ :: value => .long (String.ofList (text.takeWhile (· ≠ '='))) (some (String.ofList value))
    | [] => .long (String.ofList text) none
  | '-' :: c :: rest => .cluster (c :: rest)
  | _ => .operand arg

/-- Whether an argument can be the value of the option before it. -/
def isValue (arg : String) : Bool :=
  match classify arg with
  | .operand _ => true
  | _ => false

def readArguments (verb : Verb) : List String → Given → Except Stop Given
  | [], g => .ok g
  | arg :: rest, g =>
    match classify arg with
    | .endOfOptions => rest.foldlM (fun g value => g.operand verb.operandLimit value) g
    | .operand text => do readArguments verb rest (← g.operand verb.operandLimit text)
    | .long name value =>
      match longOption? (some verb) name, value with
      | none, _ => .error .invalid
      | some (.flag f), none => do readArguments verb rest (← g.flag f)
      | some (.flag _), some _ => .error .invalid
      | some (.setting s), some value => do readArguments verb rest (← g.setting s value)
      | some (.setting s), none =>
        match rest with
        | [] => .error .invalid
        | value :: rest =>
          if isValue value then do readArguments verb rest (← g.setting s value)
          else .error .invalid
    | .cluster letters =>
      match readCluster (some verb) letters g with
      | .error stop => .error stop
      | .ok (.closed g) => readArguments verb rest g
      | .ok (.awaiting s g) =>
        match rest with
        | [] => .error .invalid
        | value :: rest =>
          if isValue value then do readArguments verb rest (← g.setting s value)
          else .error .invalid

/-! ### Commands -/

def Given.choices (g : Given) : Choices where
  node := g.settings.lookup .node
  stylesheet := g.flags.contains .stylesheet
  relative := g.flags.contains .relative
  output := g.settings.lookup .output
  title := g.settings.lookup .title

/-- The command given.  `env` supplies what may also come from the environment, and
    `publicBase` the address of the service when none is given. -/
def Given.command? (g : Given) (verb : Verb) (env : List (String × String)) (publicBase : String) :
    Option Command :=
  match verb with
  | .build => do
    let path ← g.operands.head?
    return .build path g.choices (g.settings.lookup .assetMap)
  | .check => do
    let path ← g.operands.head?
    return .check path (g.settings.lookup .node)
  | .fetch => do
    let fileKey ← (g.settings.lookup .fileKey).or (env.lookup "FIGMA_FILE_KEY")
    let token ← (g.settings.lookup .token).or (env.lookup "FIGMA_API_KEY")
    let base := (g.settings.lookup .base).getD publicBase
    let assets := ((g.settings.lookup .assets).bind Given.assetMode?).getD .paths
    return .fetch fileKey token base g.choices assets

def Stop.invocation : Stop → Invocation
  | .help => .help
  | .version => .version
  | .invalid => .invalid

/-- Whether the words after `help` name a command. -/
def isHelpTopic : List String → Bool
  | [] => true
  | [topic] => (Verb.ofName? topic).isSome || topic == "help"
  | _ => false

/-- Read the arguments of a command.  What was counted for the command itself goes
    before what was counted ahead of it. -/
def readCommand (env : List (String × String)) (publicBase : String) (verb : Verb)
    (args : List String) (ahead : Nat) : Invocation :=
  match readArguments verb args {} with
  | .error stop => stop.invocation
  | .ok g =>
    match g.command? verb env publicBase with
    | some command => .run (if g.verbosity = 0 then ahead else g.verbosity) command
    | none => .invalid

def readInvocation (env : List (String × String)) (publicBase : String) :
    List String → Given → Invocation
  | [], _ => .invalid
  | arg :: rest, g =>
    match classify arg with
    | .endOfOptions => .invalid
    | .operand name =>
      match Verb.ofName? name with
      | some verb => readCommand env publicBase verb rest g.verbosity
      | none => if name = "help" ∧ isHelpTopic rest then .help else .invalid
    | .long name value =>
      match longOption? none name, value with
      | some (.flag f), none =>
        match g.flag f with
        | .ok g => readInvocation env publicBase rest g
        | .error stop => stop.invocation
      | _, _ => .invalid
    | .cluster letters =>
      match readCluster none letters g with
      | .ok (.closed g) => readInvocation env publicBase rest g
      | .ok (.awaiting _ _) => .invalid
      | .error stop => stop.invocation

end Command

end DesignMarkup
