/-
  RouteAtlas: changes of file trees.

  A change works on a tree and may fail; what it did before it failed stays done.

  * `makeDirectory` makes one directory, `makeDirectories` the missing ones above it too;
  * `write` writes through links, `create` makes a file where nothing is, and `move` puts it in the place
    of whatever is no directory;
  * `replace` writes a file under a name of its own first and then moves it to its place, so that nobody
    ever sees a part of it; `deliver` makes the missing directories above it too;
  * `link` and `delete` make links and take entries away.
-/
import RouteAtlas.FileTree.Basic

namespace RouteAtlas

/-- Work that changes a tree. -/
abbrev Change := ExceptT TreeError (StateM FileTree)

namespace FileTree

/-- Puts an entry at a place. -/
def put (place : Place) (entry : Entry) : Change Unit :=
  modify fun t => { t with root := t.root.putAt entry place }

/-- The place of an entry itself, and what is there. -/
def examine (path : FilePath) : Change (Place × Option Entry) := do
  let t ← get
  let place ← t.ownPlace path
  return (place, t.at? place)

/-! ## Directories -/

/-- Makes a directory where nothing is. -/
def makeDirectory (path : FilePath) : Change Unit := do
  match ← examine path with
  | (place, none) => put place (.directory [])
  | (_, some _) => throw .occupied

/-- Makes a directory unless it is there. -/
def ensureDirectory (path : FilePath) : Change Unit := do
  try makeDirectory path
  catch e => if !(← get).isDirectory path then throw e

/-- Makes a directory unless it is there, and first the missing ones above it, which are at most
    `above`. -/
def makeAll (path : FilePath) : Nat → Change Unit
  | 0 => ensureDirectory path
  | above + 1 => do
    try makeDirectory path
    catch e =>
      if e == .missing then
        makeAll path.parent above
        ensureDirectory path
      else if !(← get).isDirectory path then throw e

/-- Makes a directory unless it is there, and the missing ones above it. -/
def makeDirectories (path : FilePath) : Change Unit :=
  makeAll path path.names.length

/-! ## Files -/

/-- Writes a file where a path leads to, in a directory that is there. -/
def write (path : FilePath) (content : ByteArray) : Change Unit := do
  let t ← get
  let place ← t.placeOf path
  match t.at? place with
  | some (.directory ..) => throw .isDirectory
  | _ => put place (.file content)

/-- Writes a file, and first makes the missing directories above it. -/
def writeBelow (path : FilePath) (content : ByteArray) : Change Unit := do
  makeDirectories path.parent
  write path content

/-- Makes a file where nothing is. -/
def create (path : FilePath) (content : ByteArray) : Change Unit := do
  match ← examine path with
  | (place, none) => put place (.file content)
  | (_, some _) => throw .occupied

/-- Makes a link where nothing is. -/
def link (target : String) (path : FilePath) : Change Unit := do
  match ← examine path with
  | (place, none) => put place (.link target)
  | (_, some _) => throw .occupied

/-- Takes out what stands at a place. -/
def takeOut (place : Place) : Change Unit :=
  modify fun t => { t with root := t.root.dropAt place }

/-- Takes an entry away, a directory with all that is in it. -/
def delete (path : FilePath) : Change Unit := do
  match ← examine path with
  | (place, some _) => takeOut place
  | (_, none) => throw .missing

/-- Takes an entry away if it is there. -/
def discard (path : FilePath) : Change Unit := do
  try delete path
  catch e => if e != .missing then throw e

/-! ## Files in one step -/

/-- Moves a file into the place of a path; a file or a link there is replaced, a directory is not. -/
def move (source path : FilePath) : Change Unit := do
  match ← examine source, ← examine path with
  | (_, some (.file _)), (_, some (.directory ..)) => throw .isDirectory
  | (here, some (.file content)), (there, _) =>
    takeOut here
    put there (.file content)
  | _, _ => throw .missing

/-- Puts a file in the place of a path.  It is written at another path first, and is gone from there if
    it cannot take its place. -/
def replaceBy (temporary path : FilePath) (content : ByteArray) : Change Unit := do
  create temporary .empty
  try
    write temporary content
    move temporary path
  catch e =>
    discard temporary
    throw e

/-- A name that is not taken by any of some entries: it is longer than all of them. -/
def freeName (taken : Directory) : String :=
  let longest := taken.foldr (fun e n => max e.1.length n) 0
  ".tmp_" ++ .ofList (List.replicate longest '_') ++ ".json"

/-- The path of a directory from the root, spelled without steps back: a name and a step back behind it
    are left out together, whatever stands there. -/
def spelledOut (t : FileTree) (path : FilePath) : FilePath :=
  ⟨"/", t.placeNamed path⟩

/-- Puts a file in the place of a path in one step; a link there is replaced, a directory is not.  Until
    then the file has a free name in the directory of the path. -/
def replace (path : FilePath) (content : ByteArray) : Change Unit := do
  let t ← get
  let beside := t.spelledOut path.parent
  replaceBy (beside.child (freeName (t.entriesIn beside))) path content

/-- Puts a file in the place of a path in one step, and first makes the missing directories above it. -/
def deliver (path : FilePath) (content : ByteArray) : Change Unit := do
  makeDirectories path.parent
  replace path content

end FileTree

end RouteAtlas
