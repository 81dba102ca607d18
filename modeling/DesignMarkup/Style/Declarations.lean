/-
  DesignMarkup/Style/Declarations.lean
  ====================================
  **Style declarations in the order in which properties were first set.**  Setting a
  property again changes its value and not its place, so that every property is
  declared once.
-/

namespace DesignMarkup

structure Declarations where
  toList : List (String × String)
deriving DecidableEq, Repr, Inhabited

namespace Declarations

def empty : Declarations := ⟨[]⟩

def setIn (property value : String) : List (String × String) → List (String × String)
  | [] => [(property, value)]
  | (p, v) :: rest =>
    if p = property then (p, value) :: rest else (p, v) :: setIn property value rest

/-- Set a property.  One that is already set keeps its place. -/
def set (d : Declarations) (property value : String) : Declarations :=
  ⟨setIn property value d.toList⟩

/-- Set several properties, one after the other. -/
def setAll (d : Declarations) (pairs : List (String × String)) : Declarations :=
  pairs.foldl (fun d pair => d.set pair.1 pair.2) d

/-- The declarations that setting `pairs` gives. -/
def ofList (pairs : List (String × String)) : Declarations := empty.setAll pairs

def get? (d : Declarations) (property : String) : Option String := d.toList.lookup property

def isEmpty (d : Declarations) : Bool := d.toList.isEmpty

def declarationText (pair : String × String) : String := pair.1 ++ ": " ++ pair.2 ++ ";"

/-- The declarations on one line, as in a `style` attribute. -/
def text (d : Declarations) : String := " ".intercalate (d.toList.map declarationText)

end Declarations

end DesignMarkup
