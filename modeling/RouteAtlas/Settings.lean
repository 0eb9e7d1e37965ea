/-
  RouteAtlas: settings.

  Settings say which files are route files, where routes start, and how handlers are read.

  * `Settings` has the usual value of each setting;
  * `Settings.ofEnvironment` takes values from environment variables, of which one can be ill-formed.
-/
import RouteAtlas.Text.Cut
import RouteAtlas.Text.Numeral

namespace RouteAtlas

open RouteAtlas.Text

/-- How a project is scanned. -/
structure Settings where
  /-- The end of the name of a route file. -/
  routeFileMarker : String := "+server.ts"
  /-- The path at which routes start. -/
  routesRootMarker : String := "src/routes"
  /-- The names of exports that are handlers. -/
  methods : List String := ["GET", "POST", "PUT", "DELETE"]
  /-- Whether route files must be below the routes root. -/
  strictRoutesRoot : Bool := false
  /-- The functions that make responses. -/
  responseHelpers : List String := ["json"]
  /-- The calls that ask the query for a parameter. -/
  queryAccessors : List String := ["url.searchParams.get", "url.searchParams.getAll"]
  /-- The tag that describes the body of a request. -/
  bodyTag : String := "body"
  /-- The text for a type that nothing is known of. -/
  unknownType : String := "any"
  /-- The names of directories that are not looked into. -/
  ignoredDirs : List String := ["node_modules", ".git", ".svelte-kit", "build", "dist"]
  /-- How many files are analyzed at a time. -/
  scanWorkers : Int := 1
  deriving DecidableEq, Repr

namespace Settings

/-- Whether a text, in letters of any case, says yes. -/
def isYes (s : String) : Bool :=
  ["1", "true", "yes", "on"].contains s.toLower

/-- The members of a list with commas between them, trimmed; empty ones are left out. -/
def membersOf (s : String) : List String :=
  ((splitOn ',' s).map trim).filter fun m => m != ""

/-- The names of the environment variables that hold settings. -/
def environmentNames : List String :=
  ["ROUTE_FILE_MARKER", "ROUTES_ROOT_MARKER", "STRICT_ROUTES_ROOT", "RESPONSE_HELPERS",
    "QUERY_ACCESSORS", "BODY_TAG", "UNKNOWN_TYPE", "IGNORED_DIRS", "SCAN_WORKERS"]

/-- The settings of an environment, which gives the values of some variables. -/
def ofEnvironment (value? : String → Option String) : Except NumeralFault Settings := do
  let usual : Settings := {}
  let list := fun (name : String) (members : List String) =>
    ((value? name).map membersOf).getD members
  let scanWorkers ← match value? "SCAN_WORKERS" with
    | some s => readInt s
    | none => .ok usual.scanWorkers
  return {
    routeFileMarker := (value? "ROUTE_FILE_MARKER").getD usual.routeFileMarker
    routesRootMarker := (value? "ROUTES_ROOT_MARKER").getD usual.routesRootMarker
    strictRoutesRoot := ((value? "STRICT_ROUTES_ROOT").map isYes).getD usual.strictRoutesRoot
    responseHelpers := list "RESPONSE_HELPERS" usual.responseHelpers
    queryAccessors := list "QUERY_ACCESSORS" usual.queryAccessors
    bodyTag := (value? "BODY_TAG").getD usual.bodyTag
    unknownType := (value? "UNKNOWN_TYPE").getD usual.unknownType
    ignoredDirs := list "IGNORED_DIRS" usual.ignoredDirs
    scanWorkers }

/-- An environment without variables gives the usual settings. -/
theorem ofEnvironment_empty : ofEnvironment (fun _ => none) = .ok {} := rfl

end Settings

end RouteAtlas
