/-
  RouteAtlas: sessions.

  A session keeps the last good map of a project.  A scan that succeeds replaces the map, and one that
  fails leaves it.

  * `Session.rebuild` scans, `Session.routes` scans only if there is no map yet;
  * `Session.fileChanged` scans if a route file changed;
  * `Session.writeArtifact` writes the map into a file, all of it or nothing.
-/
import RouteAtlas.FileTree.Change
import RouteAtlas.Route.Text
import RouteAtlas.Scan

namespace RouteAtlas

/-- The last good map of a project, and how the project is scanned. -/
structure Session where
  root : FilePath
  settings : Settings := {}
  cached : Option RouteMap := none

/-- All that work in a session can change. -/
structure Service where
  tree : FileTree
  journal : Journal := {}
  session : Session

/-- Work in a session; what was changed before it failed stays changed. -/
abbrev Serving := ExceptT Failure (StateM Service)

namespace Service

/-- Does work that records. -/
def recording {α : Type} (work : Recording α) : Serving α := fun s =>
  let (result, journal) := work.run s.journal
  (result, { s with journal })

/-- Does work that changes the tree. -/
def changing {α : Type} (work : Change α) : Serving α := fun s =>
  let (result, tree) := work.run s.tree
  (result.mapError .tree, { s with tree })

/-- Does work in a session of its own; the session around it stays as it is. -/
def within {α : Type} (session : Session) (work : Serving α) : Serving α := fun s =>
  let (result, after) := work.run { s with session }
  (result, { after with session := s.session })

end Service

namespace Session

open Service

/-! ## The map -/

/-- Counts a failed scan, and says why it failed. -/
def reportFailure (e : ScanError) : Serving Unit := do
  recording (counted fun m => m.countScan true)
  recording (logged .error ("Route scan failed, keeping previous route map: " ++ e.message))

/-- Scans the project.  The map is replaced if the scan succeeds; otherwise the failure is passed on,
    an error of the scan after a report. -/
def rebuild : Serving RouteMap := do
  let s ← get
  let map ←
    tryCatch (recording (Scan.routeMap s.tree s.session.settings s.session.root)) fun failure => do
      match failure with
      | .scan e => reportFailure e
      | _ => pure ()
      throw failure
  recording (counted fun m => m.countScan false)
  modify fun s => { s with session := { s.session with cached := some map } }
  return map

/-- The map, from a scan if there is none yet. -/
def routes : Serving RouteMap := do
  match (← get).session.cached with
  | some map => return map
  | none => rebuild

/-! ## Changed files -/

/-- Whether a change of a file can change the map. -/
def handles (s : Session) (file : String) : Bool :=
  Text.endsWith s.settings.routeFileMarker file

/-- Scans the project if the changed file is a route file. -/
def fileChanged (file : String) : Serving (Option RouteMap) := do
  if (← get).session.handles file then
    recording (logged .info ("Route file changed: " ++ file))
    return some (← rebuild)
  else return none

/-! ## The artifact -/

/-- Writes the text of the map into a file, and makes the missing directories above it.  The text is
    there before the first change, and takes the place of the file in one step. -/
def writeArtifact (path : FilePath) : Serving FilePath := do
  let text := RouteMap.text (← routes)
  changing (FileTree.deliver path text.toUTF8)
  recording (logged .info ("Wrote route map to " ++ path.text))
  return path

end Session

end RouteAtlas
