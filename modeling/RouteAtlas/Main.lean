/-
  RouteAtlas: the program.

  The program reads a project from the disk into a tree, runs the command there, and puts the file that
  the command wrote onto the disk.

  * `treeFor` reads the disk, `writeOnDisk` writes it;
  * `main` is the program, which ends with the status of the run.
-/
import RouteAtlas.CommandLine.Run

namespace RouteAtlas.Program

open RouteAtlas.CommandLine

/-! ## Reading the disk -/

/-- Whether a path leads to a directory on the disk. -/
def isDirectoryOnDisk (path : String) : IO Bool := do
  try return ← (← IO.FS.realPath path).isDir
  catch _ => return false

/-- What stands on the disk and is no directory.  Only route files are read; one that cannot be read is
    kept as a link to itself, which leads nowhere. -/
def fileOnDisk (marker name path : String) : IO Entry := do
  if Text.endsWith marker name then
    try return .file (← IO.FS.readBinFile path)
    catch _ => return .link name
  else return .file .empty

/-- Why the disk refuses to read a directory. -/
def reasonOf : IO.Error → String
  | .permissionDenied _ _ details => details
  | error => toString error

/-- A directory on the disk, with what stands in it or with the reason for which it refuses to be read.  A
    link to a directory is kept as one to the root, because nothing behind it is looked at. -/
partial def directoryOnDisk (marker dir : String) : IO Entry := do
  let listed ← try pure (Except.ok (← (← IO.FS.realPath dir).readDir))
    catch error => pure (Except.error (reasonOf error))
  match listed with
  | .error reason => return .directory [] (some reason)
  | .ok all =>
    let mut entries : Directory := []
    for found in all do
      let path := found.path.toString
      let entry ←
        match (← found.path.symlinkMetadata).type with
        | .dir => directoryOnDisk marker path
        | .symlink =>
          if ← isDirectoryOnDisk path then pure (.link "/") else fileOnDisk marker found.fileName path
        | _ => fileOnDisk marker found.fileName path
      entries := (found.fileName, entry) :: entries
    return .directory entries

/-- Puts the directories that are on the way of a path on the disk into a tree. -/
def withWay (tree : FileTree) (path : FilePath) : IO FileTree := do
  let mut tree := tree
  for length in List.range (path.names.length + 1) do
    let place := tree.placeNamed { path with names := path.names.take length }
    if (tree.at? place).isNone && (← isDirectoryOnDisk place.text) then
      tree := { tree with root := tree.root.putAt (.directory []) place }
  return tree

/-- Puts the project on the disk into a tree.  Where a link leads to its root, the tree has the link. -/
def withProject (marker : String) (tree : FileTree) (root : FilePath) : IO FileTree := do
  let tree ← withWay tree root
  let place := tree.placeNamed root
  unless ← isDirectoryOnDisk place.text do return tree
  let real := FilePath.ofText (← IO.FS.realPath place.text).toString
  let tree ← withWay tree real
  let project ← directoryOnDisk marker real.text
  let directory :=
    match real.names, project with
    | [], .directory entries _ => entries
    | names, _ => tree.root.putAt project names
  return { tree with
    root := if real.names == place then directory else directory.putAt (.link real.text) place }

/-- The tree that a run works on: the project, the working directory, and the way to the output. -/
def treeFor (marker : String) (root : FilePath) (output : Option FilePath) : IO FileTree := do
  let current := FilePath.ofText (← IO.currentDir).toString
  let tree ← withWay { current := some current.names } current
  let tree ← withProject marker tree root
  match output with
  | some path => withWay tree path
  | none => return tree

/-! ## Writing the disk -/

/-- Writes a file beside its place, and then moves it there in one step. -/
def writeOnDisk (path : FilePath) (content : ByteArray) : IO Unit := do
  IO.FS.createDirAll path.parent.text
  let beside := path.text ++ ".tmp"
  IO.FS.writeBinFile beside content
  IO.FS.rename beside path.text

/-! ## A run -/

/-- How the program is called. -/
def usage : String :=
  "usage: [-h] [-o OUTPUT] [--workers WORKERS] [--strict-routes-root] [-v] ROOT"

/-- What is reported for a run that is given up. -/
def report : Failure → String
  | .scan error => error.message
  | .unknownMethod method => "No route can have the method " ++ method
  | .tree _ => "The route map cannot be written"

/-- The settings in the environment of the program. -/
def settingsOfEnvironment : IO (Except Text.NumeralFault Settings) := do
  let values ← Settings.environmentNames.filterMapM fun name => do
    return (← IO.getEnv name).map fun value => (name, value)
  return Settings.ofEnvironment fun name => values.lookup name

/-- Runs the command on the disk. -/
def runOnDisk (settings : Settings) (given : Arguments) (arguments : List String) : IO UInt32 := do
  let session := given.session settings
  let output := given.output.map FilePath.ofText
  let tree ← treeFor settings.routeFileMarker session.root output
  let (result, after) := (run settings arguments).run { tree, session }
  for entry in after.journal.log do
    IO.eprintln (entry.level.word ++ " - " ++ entry.text)
  match result with
  | .error failure =>
    IO.eprintln (report failure)
    return 1
  | .ok exit =>
    if let some path := output then
      if let .ok content := after.tree.read path then
        writeOnDisk path content
    IO.print (exit.output.getD "")
    return UInt32.ofNat exit.status

/-- The program, with the settings of its environment. -/
def start (arguments : List String) : IO UInt32 := do
  match ← settingsOfEnvironment with
  | .error fault =>
    IO.eprintln fault.message
    return 1
  | .ok settings =>
    match Arguments.read settings arguments with
    | .error stop =>
      if stop == .help then IO.println usage else IO.eprintln usage
      return UInt32.ofNat stop.status
    | .ok given => runOnDisk settings given arguments

end RouteAtlas.Program

/-- The program. -/
def main (arguments : List String) : IO UInt32 :=
  RouteAtlas.Program.start arguments
