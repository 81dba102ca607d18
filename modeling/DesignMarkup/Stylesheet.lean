/-
  DesignMarkup/Stylesheet.lean
  ============================
  **A stylesheet that grows while markup is written.**  Each element asks for a class
  for its declarations.  Declarations of the same text share a class; new ones get
  the next number.  A rule under a name of its own may stand between them.

  Rules are only ever added at the end, so a class once given keeps its meaning.
-/
import DesignMarkup.Style.Declarations

namespace DesignMarkup

inductive ClassName where
  | named (name : String)
  | numbered (n : Nat)
deriving DecidableEq, Repr

def ClassName.text : ClassName → String
  | .named name => name
  | .numbered n => "fg-" ++ toString n

structure Rule where
  className : ClassName
  declarations : Declarations
deriving DecidableEq, Repr

/-- Rules in the order in which they were added. -/
structure Stylesheet where
  rules : List Rule
deriving DecidableEq, Repr

namespace Stylesheet

def empty : Stylesheet := ⟨[]⟩

/-- Whether a rule has a number and declarations of the given text. -/
def isNumberedWith (text : String) (rule : Rule) : Bool :=
  match rule.className with
  | .numbered _ => rule.declarations.text == text
  | .named _ => false

def isNumbered (rule : Rule) : Bool :=
  match rule.className with
  | .numbered _ => true
  | .named _ => false

/-- The number that the next new rule gets. -/
def nextNumber (s : Stylesheet) : Nat := s.rules.countP isNumbered

/-- The class of declarations that were given one. -/
def classOf? (s : Stylesheet) (d : Declarations) : Option ClassName :=
  (s.rules.find? (isNumberedWith d.text)).map (·.className)

/-- The class for declarations, and the stylesheet that has it. -/
def request (s : Stylesheet) (d : Declarations) : ClassName × Stylesheet :=
  match s.classOf? d with
  | some c => (c, s)
  | none => (.numbered s.nextNumber, ⟨s.rules ++ [⟨.numbered s.nextNumber, d⟩]⟩)

def add (s : Stylesheet) (name : String) (d : Declarations) : Stylesheet :=
  ⟨s.rules ++ [⟨.named name, d⟩]⟩

/-- A declaration on a line of its own. -/
def lineText (pair : String × String) : String := "  " ++ pair.1 ++ ": " ++ pair.2 ++ ";\n"

def ruleText (rule : Rule) : String :=
  "." ++ rule.className.text ++ " \x7b\n" ++ String.join (rule.declarations.toList.map lineText)
    ++ "\x7d\n"

def text (s : Stylesheet) : String := String.join (s.rules.map ruleText)

end Stylesheet

end DesignMarkup
