/-
  RouteAtlas: file trees.

  A tree has files, directories and links to paths.  A directory may refuse to be read; a path through
  it still leads to what is in it.  A place is where an entry stands: the names of the directories above
  it and its own name.

  * `FileTree.at?` is the entry at a place;
  * `FileTree.placeOf` is the place that a path leads to along links, `FileTree.ownPlace` the one
    where its last name itself stands;
  * `FileTree.read`, `FileTree.isDirectory` and `FileTree.listing` look at a tree;
  * `Entry.refusals` are the directories that refuse a walk.
-/
import RouteAtlas.Failure
import RouteAtlas.FilePath

namespace RouteAtlas

open RouteAtlas.Text

/-! ## Entries -/

/-- What stands in a directory under a name. -/
inductive Entry where
  | file (content : ByteArray)
  /-- A link to a path; a relative path starts at the directory of the link. -/
  | link (target : String)
  /-- A directory that can be read, or that refuses it with a reason. -/
  | directory (entries : List (String × Entry)) (refusal : Option String := none)
  deriving Inhabited

/-- The entries of a directory by name. -/
abbrev Directory := List (String × Entry)

/-- The names that lead from the root of a tree to an entry. -/
abbrev Place := List String

/-- The path of a place. -/
def Place.text (place : Place) : String :=
  "/" ++ joinWith "/" place

/-- A tree of files. -/
structure FileTree where
  /-- The entries of its root, which can be read. -/
  root : Directory := []
  /-- Where relative paths start; without it they lead nowhere. -/
  current : Option Place := none
  deriving Inhabited

namespace Directory

/-- The entry at a place below a directory. -/
def at? (entries : Directory) : Place → Option Entry
  | [] => some (.directory entries)
  | [name] => entries.lookup name
  | name :: rest =>
    match entries.lookup name with
    | some (.directory inner _) => at? inner rest
    | _ => none

/-- Puts an entry under a name: in the place of the entry with this name, or last. -/
def set (entries : Directory) (name : String) (entry : Entry) : Directory :=
  match entries with
  | [] => [(name, entry)]
  | (n, e) :: rest => if n == name then (n, entry) :: rest else (n, e) :: set rest name entry

/-- Takes a name out. -/
def drop (entries : Directory) (name : String) : Directory :=
  entries.filter fun e => e.1 != name

/-- Puts an entry at a place, if the place is in a directory. -/
def putAt (entries : Directory) (entry : Entry) : Place → Directory
  | [] => entries
  | [name] => entries.set name entry
  | name :: rest =>
    match entries.lookup name with
    | some (.directory inner refusal) =>
      entries.set name (.directory (putAt inner entry rest) refusal)
    | _ => entries

/-- Takes the entry at a place out. -/
def dropAt (entries : Directory) : Place → Directory
  | [] => []
  | [name] => entries.drop name
  | name :: rest =>
    match entries.lookup name with
    | some (.directory inner refusal) => entries.set name (.directory (dropAt inner rest) refusal)
    | _ => entries

end Directory

namespace FileTree

/-- The entry at a place. -/
def at? (t : FileTree) (place : Place) : Option Entry :=
  t.root.at? place

/-! ## Paths -/

/-- How many links are followed on the way to one place. -/
def linkLimit : Nat := 40

/-- The place to which some steps lead from a directory, if `links` links may be followed.  Only the
    entry at the end may be absent. -/
def follow (t : FileTree) (links : Nat) (here : Place) : List String → Except TreeError Place
  | [] => .ok here
  | step :: rest =>
    if step == ".." then follow t links here.dropLast rest
    else
      let place := here ++ [step]
      match t.at? place with
      | none => if rest.isEmpty then .ok place else .error .missing
      | some (.directory ..) => follow t links place rest
      | some (.file _) => if rest.isEmpty then .ok place else .error .notDirectory
      | some (.link target) =>
        match links with
        | 0 => .error .missing
        | links + 1 =>
          let path := FilePath.ofText target
          follow t links (if path.isAbsolute then [] else here) (path.names ++ rest)
termination_by steps => (links, steps.length)

/-- The place that a path leads to. -/
def placeOf (t : FileTree) (path : FilePath) : Except TreeError Place :=
  match if path.isAbsolute then some [] else t.current with
  | some start => t.follow linkLimit start path.names
  | none => .error .missing

/-- Whether something is at the place of a path, and is a directory. -/
def isDirectory (t : FileTree) (path : FilePath) : Bool :=
  match t.placeOf path with
  | .ok place =>
    match t.at? place with
    | some (.directory ..) => true
    | _ => false
  | .error _ => false

/-- The place where the last name of a path itself stands, a link not being followed. -/
def ownPlace (t : FileTree) (path : FilePath) : Except TreeError Place :=
  if path.names.isEmpty || path.name == ".." then t.placeOf path
  else do
    let above ← t.placeOf path.parent
    match t.at? above with
    | some (.directory ..) => .ok (above ++ [path.name])
    | some _ => .error .notDirectory
    | none => .error .missing

/-- The entries of the directory that a path leads to, none if it leads to no directory. -/
def entriesIn (t : FileTree) (path : FilePath) : Directory :=
  match t.placeOf path with
  | .ok place =>
    match t.at? place with
    | some (.directory entries _) => entries
    | _ => []
  | .error _ => []

/-- The place that a path names, if no link is on its way. -/
def placeNamed (t : FileTree) (path : FilePath) : Place :=
  path.names.foldl (fun here name => if name == ".." then here.dropLast else here ++ [name])
    (if path.isAbsolute then [] else t.current.getD [])

/-- The content of the file that a path leads to. -/
def read (t : FileTree) (path : FilePath) : Except TreeError ByteArray := do
  match t.at? (← t.placeOf path) with
  | some (.file content) => .ok content
  | some _ => .error .isDirectory
  | none => .error .missing

/-! ## Listings -/

/-- Whether the link at a place leads to a directory. -/
def leadsToDirectory (t : FileTree) (place : Place) : Bool :=
  t.isDirectory ⟨"/", place⟩

mutual
/-- The paths of the entry at a place and of everything below it; links are not followed, and a slash
    stands behind a directory. -/
def pathsAt (t : FileTree) (place : Place) : Entry → List String
  | .file _ => [place.text]
  | .link _ => [if t.leadsToDirectory place then place.text ++ "/" else place.text]
  | .directory entries _ => (place.text ++ "/") :: pathsIn t place entries
termination_by structural entry => entry
/-- The paths of everything below a place with given entries. -/
def pathsIn (t : FileTree) (place : Place) : List (String × Entry) → List String
  | [] => []
  | (name, entry) :: rest => pathsAt t (place ++ [name]) entry ++ pathsIn t place rest
termination_by structural entries => entries
end

/-- Texts in the order of their characters. -/
def sorted (texts : List String) : List String :=
  texts.mergeSort fun a b => decide (a ≤ b)

/-- The paths of everything below a directory, sorted. -/
def listing (t : FileTree) (path : FilePath) : Except TreeError (List String) := do
  let place ← t.placeOf path
  match t.at? place with
  | some (.directory entries _) => .ok (sorted (t.pathsIn place entries))
  | some _ => .error .notDirectory
  | none => .error .missing

end FileTree

/-! ## Walks -/

mutual
/-- The directories at a place and below it that refuse to be read, each with its reason, in the order in
    which a walk comes to them.  It does not look into directories with certain names, or behind links. -/
def Entry.refusals (skipped : List String) (place : Place) : Entry → List (Place × String)
  | .directory entries refusal =>
    refusal.toList.map (Prod.mk place) ++ Directory.refusals skipped place entries
  | _ => []
termination_by structural entry => entry
/-- The directories below a place with given entries that refuse to be read. -/
def Directory.refusals (skipped : List String) (place : Place) :
    List (String × Entry) → List (Place × String)
  | [] => []
  | (name, entry) :: rest =>
    (if skipped.contains name then [] else entry.refusals skipped (place ++ [name])) ++
      Directory.refusals skipped place rest
termination_by structural entries => entries
end

end RouteAtlas
