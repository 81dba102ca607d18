/-
  DesignMarkup/Api/Work.lean
  ==========================
  **Work on the outside world.**  The world is a tree of files, the requests that
  were answered so far, and the lines said so far, each a notice or plain text.  Work
  changes it step by step and may fail; what was done before the failure stays done.
-/
import DesignMarkup.Api.Network
import DesignMarkup.Files.Tree
import DesignMarkup.Notice

namespace DesignMarkup

inductive Line where
  | notice (n : Notice)
  | plain (text : String)

structure World where
  files : FileTree
  requests : List Request := []
  lines : List Line := []

/-- Work that may fail for a reason of type `ε`. -/
abbrev Work (ε : Type) := EStateM ε World

namespace Work

variable {ε δ α : Type}

def say (lines : List Line) : Work ε Unit :=
  modify fun w => { w with lines := w.lines ++ lines }

def note (notices : List Notice) : Work ε Unit := say (notices.map .notice)

/-- Say a line of plain text. -/
def print (text : String) : Work ε Unit := say [.plain text]

/-- Ask the network.  A request counts once it is answered. -/
def ask (network : Network) (r : Request) : Work ε (Option Reply) := do
  match network r with
  | none => return none
  | some reply =>
    modify fun w => { w with requests := w.requests ++ [r] }
    return some reply

def orElseFail (reason : ε → δ) (work : Work ε α) : Work δ α := fun w =>
  match work w with
  | .ok a w => .ok a w
  | .error e w => .error (reason e) w

/-- What came of something that may have failed. -/
def ofExcept (result : Except ε α) : Work ε α := fun w =>
  match result with
  | .ok a => .ok a w
  | .error e => .error e w

end Work

end DesignMarkup
