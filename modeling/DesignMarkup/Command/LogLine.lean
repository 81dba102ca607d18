/-
  DesignMarkup/Command/LogLine.lean
  =================================
  **What a notice looks like in the log.**  A line names the level and the part of the
  program between brackets; the message follows.  A log for a terminal is in color.
  Any other log is plain, and what could steer a terminal is left out of it.

  The environment decides between the two, and where it says nothing the log is plain,
  for it is read by whoever called the program.
-/
import DesignMarkup.Notice
import DesignMarkup.Text.Uncontrolled

namespace DesignMarkup.Command

inductive LogStyle where
  | plain
  | colored
deriving DecidableEq, Repr

/-- The variables of the environment that decide on the style. -/
def LogStyle.variables : List String := ["RUST_LOG_STYLE", "NO_COLOR", "CLICOLOR_FORCE"]

/-- The style that the environment asks for.  A variable of the log itself comes first,
    then one that forbids all colors, and last one that asks for them; these two count
    unless they are empty. -/
def LogStyle.ofEnvironment (env : List (String × String)) : LogStyle :=
  let isSet (name : String) : Bool := (env.lookup name).any fun value => value ≠ ""
  match env.lookup "RUST_LOG_STYLE" with
  | some "always" => .colored
  | some "never" => .plain
  | _ => if !isSet "NO_COLOR" && isSet "CLICOLOR_FORCE" then .colored else .plain

/-- The control sequence that switches to a rendition. -/
def rendition (code : String) : String := "\x1b[" ++ code ++ "m"

/-- A text in a rendition, written as control sequences. -/
def rendered (switch text : String) : String := switch ++ text ++ rendition "0"

/-- What switches to the color of a level: the more it matters, the warmer. -/
def levelSwitch : Level → String
  | .error => rendition "1" ++ rendition "31"
  | .warn => rendition "33"
  | .info => rendition "32"
  | .debug => rendition "34"
  | .trace => rendition "36"

/-- A bracket, in grey so that it does not stand out. -/
def greyBracket (bracket : String) : String := rendered (rendition "90") bracket

/-- A text with spaces in front of all its lines but the first. -/
def indentLines (text : String) : String :=
  String.ofList (text.toList.flatMap fun c => if c = '\n' then "\n    ".toList else [c])

def levelColumn (l : Level) : String :=
  l.name ++ String.ofList (List.replicate (5 - l.name.length) ' ')

def noticeText (style : LogStyle) (n : Notice) : String :=
  match style with
  | .plain =>
    Text.uncontrolled
      ("[" ++ levelColumn n.level ++ " " ++ n.target ++ "] " ++ indentLines n.message ++ "\n")
  | .colored =>
    greyBracket "[" ++ rendered (levelSwitch n.level) (levelColumn n.level) ++ " " ++ n.target
      ++ greyBracket "]" ++ " " ++ indentLines n.message ++ "\n"

end DesignMarkup.Command
