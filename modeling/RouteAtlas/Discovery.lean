/-
  RouteAtlas: finding route files.

  The route files of a project are the files below its root whose names end with a marker.  Ignored
  directories are not looked into, and links to directories are not followed.  A directory that is
  looked into has to let itself be read.

  * `routeFilesAt` and `routeFilesIn` walk the tree, `find` sorts what they find.
-/
import RouteAtlas.FileTree.Basic

namespace RouteAtlas.Discovery

open RouteAtlas.Text

mutual
/-- The route files at a place, which has a name, and below it. -/
def routeFilesAt (t : FileTree) (marker : String) (ignored : List String) (place : Place)
    (name : String) : Entry → List String
  | .file _ => if endsWith marker name then [place.text] else []
  | .link _ =>
    if endsWith marker name && !t.leadsToDirectory place then [place.text] else []
  | .directory entries _ =>
    if ignored.contains name then [] else routeFilesIn t marker ignored place entries
termination_by structural entry => entry
/-- The route files below a place with given entries. -/
def routeFilesIn (t : FileTree) (marker : String) (ignored : List String) (place : Place) :
    List (String × Entry) → List String
  | [] => []
  | (name, entry) :: rest =>
    routeFilesAt t marker ignored (place ++ [name]) name entry ++
      routeFilesIn t marker ignored place rest
termination_by structural entries => entries
end

/-- The route files of a project by their paths, sorted.  The first directory on the way that refuses to
    be read ends the search. -/
def find (t : FileTree) (root : FilePath) (marker : String := "+server.ts")
    (ignored : List String := []) : Except ScanError (List String) := do
  let missing := ScanError.noRoot (.missing root.text)
  match t.placeOf root with
  | .error _ => .error missing
  | .ok place =>
    match t.at? place with
    | some (.directory entries refusal) =>
      match (Entry.directory entries refusal).refusals ignored place with
      | (directory, reason) :: _ => .error (.noRoot (.refused directory.text reason))
      | [] => .ok (FileTree.sorted (routeFilesIn t marker ignored place entries))
    | _ => .error missing

end RouteAtlas.Discovery
