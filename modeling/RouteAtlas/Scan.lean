/-
  RouteAtlas: scanning a project.

  A scan finds the route files of a project and analyzes each of them.  Its result is the map of the
  files that have routes, in the order of their paths; if one file fails, the scan fails.

  * `oneByOne` analyzes files in order;
  * `together` analyzes them in the order in which several workers complete them, and puts the tables
    back into the order of the files;
  * `routeMap` is a whole scan.
-/
import RouteAtlas.Discovery
import RouteAtlas.Route.Analysis

namespace RouteAtlas.Scan

open RouteAtlas.Code

/-! ## Files -/

/-- The tables of files, in their order. -/
def tables (t : FileTree) (settings : Settings) (files : List String) :
    Recording (List (String × MethodTable)) :=
  files.mapM fun file => return (file, ← Analysis.analyze t settings file)

/-- The entries with routes. -/
def withRoutes (entries : List (String × MethodTable)) : RouteMap :=
  entries.filter fun e => !e.2.isEmpty

/-- The map of files that are analyzed one after the other. -/
def oneByOne (t : FileTree) (settings : Settings) (files : List String) : Recording RouteMap :=
  return withRoutes (← tables t settings files)

/-- The entries of files in the order of the files. -/
def arranged (files : List String) (entries : List (String × MethodTable)) :
    List (String × MethodTable) :=
  files.filterMap fun file => (entries.lookup file).map fun table => (file, table)

/-- The map of files whose analyses complete in a given order. -/
def together (t : FileTree) (settings : Settings) (files completed : List String) :
    Recording RouteMap :=
  return withRoutes (arranged files (← tables t settings completed))

/-! ## Projects -/

/-- The form of the language with a name. -/
def grammarNamed (name : String) : Except ScanError Dialect :=
  match Dialect.ofWord? name with
  | some dialect => .ok dialect
  | none => .error (.unknownGrammar name)

/-- The route files of a project. -/
def routeFiles (t : FileTree) (settings : Settings) (root : FilePath) :
    Recording (List String) := do
  match Discovery.find t root settings.routeFileMarker settings.ignoredDirs with
  | .ok files => return files
  | .error e => failing e

/-- The map of a project.  Several workers are given the files in order, and as far as anything here
    can tell they complete them in order.  The phases take no time that is counted. -/
def routeMap (t : FileTree) (settings : Settings) (root : FilePath) : Recording RouteMap := do
  let files ← routeFiles t settings root
  counted fun m => m.timePhase "discover" 0
  let map ←
    if settings.scanWorkers > 1 && files.length > 1 then together t settings files files
    else oneByOne t settings files
  counted fun m => m.timePhase "analyze" 0
  return map

end RouteAtlas.Scan
