/-
  DesignMarkup/Main.lean
  ======================
  **The program.**  It looks at the files that the command line is about, runs the
  command on them, and carries out what became of them.  No transport is built in:
  the network is the one where nothing answers.
-/
import DesignMarkup.Command.Run

namespace DesignMarkup.Main

def absolute (place : Place) : String := "/" ++ "/".intercalate place

/-- What stands at a place of the disk.  What cannot be read as a file counts as a
    directory. -/
def probe (place : Place) : IO (Option Entry) := do
  try
    return some (.file (← IO.FS.readBinFile (absolute place)))
  catch e =>
    match e with
    | .noFileOrDirectory .. | .permissionDenied .. => return none
    | _ => return some .directory

/-- Look at the places that lie on a path, for as long as there is something. -/
def look (t : FileTree) : Place → List (List Char) → IO FileTree
  | _, [] => return t
  | place, component :: rest => do
    if Path.isIdle component then look t place rest
    else if component = ['.', '.'] then look t place.dropLast rest
    else
      let next := place ++ [String.ofList component]
      match t.entryAt? next with
      | some _ => look t next rest
      | none =>
        match ← probe next with
        | some entry => look (t.put next entry) next rest
        | none => return t

/-- The variables of the environment that matter. -/
def environment : IO (List (String × String)) := do
  let names := ["FIGMA_FILE_KEY", "FIGMA_API_KEY", "RUST_LOG"] ++ Command.LogStyle.variables
  names.filterMapM fun name => do
    return (← IO.getEnv name).map fun value => (name, value)

def carryOut (before : FileTree) (place : Place) : Entry → IO Unit
  | .directory => IO.FS.createDirAll (absolute place)
  | .file content => do
    match before.entryAt? place with
    | some (.file old) =>
      if old.data = content.data then return
    | _ => pure ()
    IO.FS.writeBinFile (absolute place) content

/-- Run the program on the disk; the result is its exit code. -/
def program (args : List String) : IO UInt32 := do
  let env ← environment
  let current := ((Path.split (toString (← IO.currentDir)).toList).filter
    fun component => !component.isEmpty).map String.ofList
  let paths := (Command.readInvocation env publicBase args {}).paths
  let here ← look ⟨[], current⟩ [] (current.map String.toList)
  let files ← paths.foldlM (fun t path => look t (t.start path) (Path.split path.toList)) here
  let ending := Command.run args env .silent files
  for (place, entry) in ending.world.files.entries do
    carryOut files place entry
  IO.print ending.stdout
  IO.eprint ending.stderr
  return UInt32.ofNat ending.exitCode

end DesignMarkup.Main

def main (args : List String) : IO UInt32 := DesignMarkup.Main.program args
