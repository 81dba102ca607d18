/-
  DesignMarkup/Files/Path.lean
  ============================
  **Paths as text.**  A path is cut at its slashes.  Empty components and those of a
  single dot say nothing, except a dot at the very front.  What can be asked of a
  path without looking at any file: its last name with stem and extension, what is
  around it, and the path next to it with another extension.
-/

namespace DesignMarkup.Path

/-- The components between slashes, empty ones included. -/
def split : List Char → List (List Char)
  | [] => [[]]
  | c :: rest =>
    if c = '/' then [] :: split rest
    else
      match split rest with
      | [] => [[c]]
      | first :: more => (c :: first) :: more

def join : List (List Char) → List Char
  | [] => []
  | [component] => component
  | component :: rest => component ++ '/' :: join rest

def isAbsolute (path : String) : Bool := path.toList.head? == some '/'

/-- A component that says nothing. -/
def isIdle (component : List Char) : Bool := component.isEmpty || component == ['.']

/-- Drop idle components from the end, but keep a single dot that is all there is. -/
def dropIdle (reversed : List (List Char)) : List (List Char) :=
  match reversed with
  | [] => []
  | [['.']] => [['.']]
  | component :: rest =>
    if isIdle component then dropIdle rest else component :: rest

/-- The components without idle ones at the end. -/
def significant (path : String) : List (List Char) := (dropIdle (split path.toList).reverse).reverse

/-- The path that the last component stands in; nothing for a path that has none. -/
def parent? (path : String) : Option String :=
  match dropIdle (split path.toList).reverse with
  | [] => none
  | _ :: before =>
    match dropIdle before with
    | [] => some (if isAbsolute path then "/" else "")
    | components => some (String.ofList (join components.reverse))

def fileName? (path : String) : Option (List Char) :=
  match dropIdle (split path.toList).reverse with
  | [] => none
  | name :: _ => if name = ['.'] ∨ name = ['.', '.'] then none else some name

/-- A name without its last extension.  A dot at the front starts no extension. -/
def stemOf (name : List Char) : List Char :=
  match (name.reverse.dropWhile (· ≠ '.')).reverse.dropLast with
  | [] => name
  | stem => stem

def stem? (path : String) : Option String := (fileName? path).map fun name => String.ofList (stemOf name)

def extensionOf (name : List Char) : Option (List Char) :=
  if stemOf name = name then none else some (name.drop ((stemOf name).length + 1))

/-- The path up to the stem of its last name, and an extension after that; a path
    without a last name stays as it is. -/
def restem (path : String) (extension : String) : String :=
  match fileName? path with
  | none => path
  | some name =>
    let kept := (significant path).dropLast ++ [stemOf name]
    String.ofList (join kept) ++ "." ++ extension

/-- Drop characters from the front of a text that take up to so many bytes. -/
def dropBytes (bytes : Nat) : List Char → List Char
  | [] => []
  | c :: rest =>
    if c.utf8Size ≤ bytes then dropBytes (bytes - c.utf8Size) rest else c :: rest

/-- The path with its extension replaced, or with one added.  First as many bytes as
    the extension has are cut off the end; a name like `..x` is then a step up, and no
    extension is added to that. -/
def withExtension (path : String) (extension : String) : String :=
  match (fileName? path).bind extensionOf with
  | none => restem path extension
  | some old =>
    let bytes := old.foldr (fun c n => c.utf8Size + n) 0
    restem (String.ofList (dropBytes bytes path.toList.reverse).reverse) extension

/-- `path` taken from within `base`. -/
def within (base path : String) : String :=
  if isAbsolute path || base.isEmpty then path
  else if base.toList.getLast? == some '/' then base ++ path
  else base ++ "/" ++ path

end DesignMarkup.Path
