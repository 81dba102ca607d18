/-
  DesignMarkup/Files/Tree.lean
  ============================
  **Files and directories.**  A tree maps places, which are lists of names from the
  root, to files and directories; the root is a directory.  A path is followed name
  by name: a single dot stays, a double dot goes up, and everything on the way must
  be a directory.

  Operations that change a tree give the tree after them even when they fail, since
  part of the work may have been done.
-/
import DesignMarkup.Files.Path

namespace DesignMarkup

inductive Entry where
  | file (content : ByteArray)
  | directory

inductive FileError where
  | notFound
  | present
  | notDirectory
  | isDirectory
  | nameTooLong
  | nulInPath
  | notText
  | tooDeep
deriving DecidableEq, Repr

def FileError.message : FileError → String
  | .notFound => "No such file or directory (os error 2)"
  | .present => "File exists (os error 17)"
  | .notDirectory => "Not a directory (os error 20)"
  | .isDirectory => "Is a directory (os error 21)"
  | .nameTooLong => "File name too long (os error 36)"
  | .nulInPath => "file name contained an unexpected NUL byte"
  | .notText => "stream did not contain valid UTF-8"
  | .tooDeep => "failed to create whole tree"

/-- The names from the root to a place. -/
abbrev Place := List String

/-- Files and directories, and the directory that relative paths start from. -/
structure FileTree where
  entries : List (Place × Entry)
  current : Place

namespace FileTree

def entryAt? (t : FileTree) (place : Place) : Option Entry :=
  if place = [] then some .directory else t.entries.lookup place

/-- Put an entry at a place of a list of entries. -/
def putIn (place : Place) (entry : Entry) : List (Place × Entry) → List (Place × Entry)
  | [] => [(place, entry)]
  | (p, e) :: rest =>
    if p = place then (p, entry) :: rest else (p, e) :: putIn place entry rest

def put (t : FileTree) (place : Place) (entry : Entry) : FileTree :=
  { t with entries := putIn place entry t.entries }

def maxName : Nat := 255

def maxPath : Nat := 4095

def within (directory : Place) (name : List Char) : Except FileError Place :=
  let name := String.ofList name
  if maxName < name.utf8ByteSize then .error .nameTooLong else .ok (directory ++ [name])

/-- What is wrong with a path whatever it leads to. -/
def admissible (path : String) : Except FileError Unit :=
  if path.toList.contains '\x00' then .error .nulInPath
  else if maxPath < path.utf8ByteSize then .error .nameTooLong
  else .ok ()

/-- Follow the components of a path from a place. -/
def follow (t : FileTree) : Place → List (List Char) → Except FileError Place
  | place, [] => .ok place
  | place, component :: rest =>
    match t.entryAt? place with
    | none => .error .notFound
    | some (.file _) => .error .notDirectory
    | some .directory =>
      if Path.isIdle component then t.follow place rest
      else if component = ['.', '.'] then t.follow place.dropLast rest
      else
        match within place component with
        | .error e => .error e
        | .ok next =>
          match t.entryAt? next with
          | none => .error .notFound
          | some _ => t.follow next rest

/-- The place that a path starts from. -/
def start (t : FileTree) (path : String) : Place := if Path.isAbsolute path then [] else t.current

def find (t : FileTree) (path : String) : Except FileError Place := do
  admissible path
  if path = "" then .error .notFound else t.follow (t.start path) (Path.split path.toList)

def isPresent (t : FileTree) (path : String) : Bool :=
  match t.find path with
  | .ok _ => true
  | .error _ => false

def hasDirectory (t : FileTree) (path : String) : Bool :=
  match t.find path with
  | .ok place =>
    match t.entryAt? place with
    | some .directory => true
    | _ => false
  | .error _ => false

def read (t : FileTree) (path : String) : Except FileError ByteArray := do
  match t.entryAt? (← t.find path) with
  | some (.file content) => .ok content
  | some .directory => .error .isDirectory
  | none => .error .notFound

def readText (t : FileTree) (path : String) : Except FileError String := do
  match String.fromUTF8? (← t.read path) with
  | some text => .ok text
  | none => .error .notText

/-- The place that a new entry would have: its last name in the directory before it.
    A path that ends in a slash or in dots names a directory only. -/
def newPlace (t : FileTree) (path : String) : Except FileError Place := do
  admissible path
  let components := Path.split path.toList
  let named := (components.reverse.dropWhile List.isEmpty).reverse
  match named.getLast? with
  | none => if path = "" then .error .notFound else .error .isDirectory
  | some name =>
    let directory ← t.follow (t.start path) named.dropLast
    match t.entryAt? directory with
    | some .directory =>
      if named.length < components.length ∨ name = ['.'] ∨ name = ['.', '.'] then
        .error .isDirectory
      else within directory name
    | some (.file _) => .error .notDirectory
    | none => .error .notFound

/-- Write a file, a new one or over an old one. -/
def write (t : FileTree) (path : String) (content : ByteArray) : Except FileError FileTree := do
  let place ← t.newPlace path
  match t.entryAt? place with
  | some .directory => .error .isDirectory
  | _ => .ok (t.put place (.file content))

/-- Make one directory.  A slash at the end of its path is no matter. -/
def makeDirectory (t : FileTree) (path : String) : Except FileError FileTree := do
  admissible path
  if t.isPresent path then .error .present
  else
    match Path.parent? path, Path.fileName? path with
    | some parent, some name =>
      let directory ← t.follow (t.start path) (if parent = "" then [] else Path.split parent.toList)
      match t.entryAt? directory with
      | some .directory =>
        let place ← within directory name
        match t.entryAt? place with
        | some _ => .error .present
        | none => .ok (t.put place .directory)
      | some (.file _) => .error .notDirectory
      | none => .error .notFound
    | _, _ => .error .notFound

/-- Make a directory and those around it that do not exist.  `fuel` bounds how many. -/
def makeDirectories : Nat → String → FileTree → Except FileError Unit × FileTree
  | 0, _, t => (.error .tooDeep, t)
  | fuel + 1, path, t =>
    if path = "" then (.ok (), t)
    else
      let settle (t : FileTree) (e : FileError) : Except FileError Unit × FileTree :=
        if t.hasDirectory path then (.ok (), t) else (.error e, t)
      match t.makeDirectory path with
      | .ok t => (.ok (), t)
      | .error .notFound =>
        match Path.parent? path with
        | none => (.error .tooDeep, t)
        | some parent =>
          match makeDirectories fuel parent t with
          | (.error e, t) => (.error e, t)
          | (.ok (), t) =>
            match t.makeDirectory path with
            | .ok t => (.ok (), t)
            | .error e => settle t e
      | .error e => settle t e

/-- The place and its directories, from the root on. -/
def placesTo : Place → List Place
  | [] => []
  | place@(_ :: _) => (List.range place.length).map fun n => place.take (n + 1)

/-- Add a directory and those around it. -/
def addDirectory (t : FileTree) (place : Place) : FileTree :=
  (placesTo place).foldl (fun t p => if (t.entryAt? p).isSome then t else t.put p .directory) t

/-- The tree with the given files in its current directory, and nothing else. -/
def ofFiles (current : Place) (files : List (Place × ByteArray)) : FileTree :=
  files.foldl
    (fun t file =>
      let place := current ++ file.1
      (t.addDirectory place.dropLast).put place (.file file.2))
    (addDirectory ⟨[], current⟩ current)

/-- The files in and below the current directory, by their paths from there. -/
def files (t : FileTree) : List (String × ByteArray) :=
  t.entries.filterMap fun entry =>
    match entry.2 with
    | .file content =>
      if t.current.isPrefixOf entry.1 then
        some ("/".intercalate (entry.1.drop t.current.length), content)
      else none
    | .directory => none

end FileTree

end DesignMarkup
