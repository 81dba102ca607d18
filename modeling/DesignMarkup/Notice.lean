/-
  DesignMarkup/Notice.lean
  ========================
  **What the library remarks on while it works.**  A notice says what happened; its
  level, the part of the program it comes from and its wording follow from that.
  Work that can remark on something yields its result together with the notices, in
  order: it is `Logged`.
-/
import DesignMarkup.Design.Role
import DesignMarkup.Json.Fault

namespace DesignMarkup

/-- How much a notice matters, the most severe first. -/
inductive Level where
  | error
  | warn
  | info
  | debug
  | trace
deriving DecidableEq, Repr

namespace Level

/-- The rank of a level; a greater one matters less. -/
def rank : Level → Nat
  | .error => 1
  | .warn => 2
  | .info => 3
  | .debug => 4
  | .trace => 5

def name : Level → String
  | .error => "ERROR"
  | .warn => "WARN"
  | .info => "INFO"
  | .debug => "DEBUG"
  | .trace => "TRACE"

end Level

inductive Notice where
  /-- A field was left out because its value is not of the type that it should be. -/
  | malformed (type : String) (why : Json.Mismatch)
  /-- A list was taken as empty because something else stands in its place. -/
  | malformedList (got : Json.Value)
  /-- An id was written with a dash for its colon. -/
  | dashedId (id : String)
  | nodeSelected (id : String)
  | pageSelected (name : String)
  | nodeSkipped (id name : String)
  | nodeEmitted (id name : String) (role : Role)
  /-- Several nodes have assets of the same path. -/
  | sharedPath (path : String)
  | fetching (url : String)
  | resolving (count : Nat) (format : String)
  | unrendered (missing total : Nat)
  | fileWritten (path : String) (bytes : Nat)
  | assetWithoutUrl (id name : String)

namespace Notice

def level : Notice → Level
  | .malformed .. | .malformedList _ | .sharedPath _ | .unrendered .. | .assetWithoutUrl .. => .warn
  | .dashedId _ | .nodeSelected _ | .pageSelected _ | .fetching _ | .resolving .. | .fileWritten .. =>
    .debug
  | .nodeSkipped .. | .nodeEmitted .. => .trace

/-- The part of the program that a notice comes from. -/
def target : Notice → String
  | .malformed .. | .malformedList _ => "figml_model::node"
  | .dashedId _ => "figml_model::response"
  | .nodeSelected _ | .pageSelected _ => "figml_codegen::root"
  | .nodeSkipped .. | .nodeEmitted .. => "figml_codegen::html"
  | .sharedPath _ => "figml_codegen"
  | .fetching _ | .resolving .. | .unrendered .. | .fileWritten .. => "figml_client"
  | .assetWithoutUrl .. => "figml"

def roleName : Role → String
  | .text => "Text"
  | .image => "Image"
  | .icon => "Icon"
  | .container => "Container"

def message : Notice → String
  | .malformed type why => "ignoring malformed " ++ type ++ ": " ++ why.message
  | .malformedList got => "ignoring malformed list: expected array, got " ++ got.compact
  | .dashedId id => "normalizing node id separator: " ++ id
  | .nodeSelected id => "selecting node " ++ id
  | .pageSelected name => "selecting first page '" ++ name ++ "'"
  | .nodeSkipped id name => "skipping " ++ id ++ " '" ++ name ++ "'"
  | .nodeEmitted id name role => "emit " ++ id ++ " '" ++ name ++ "' as " ++ roleName role
  | .sharedPath path => "several nodes share the asset path " ++ path
  | .fetching url => "fetching " ++ url
  | .resolving count format => "resolving " ++ toString count ++ " " ++ format ++ " image(s)"
  | .unrendered missing total =>
    toString missing ++ " of " ++ toString total ++ " image(s) could not be rendered"
  | .fileWritten path bytes => "wrote " ++ path ++ " (" ++ toString bytes ++ " bytes)"
  | .assetWithoutUrl id name => "no rendered URL for " ++ id ++ " (" ++ name ++ ")"

end Notice

/-- A result and the notices made on the way to it. -/
structure Logged (α : Type) where
  value : α
  notices : List Notice

namespace Logged

variable {α β : Type}

def notice (n : Notice) : Logged Unit := ⟨(), [n]⟩

instance : Monad Logged where
  pure a := ⟨a, []⟩
  bind x f := ⟨(f x.value).value, x.notices ++ (f x.value).notices⟩

@[simp] theorem value_pure (a : α) : (pure a : Logged α).value = a := rfl

@[simp] theorem notices_pure (a : α) : (pure a : Logged α).notices = [] := rfl

@[simp] theorem value_bind (x : Logged α) (f : α → Logged β) :
    (x >>= f).value = (f x.value).value := rfl

@[simp] theorem notices_bind (x : Logged α) (f : α → Logged β) :
    (x >>= f).notices = x.notices ++ (f x.value).notices := rfl

end Logged

end DesignMarkup
