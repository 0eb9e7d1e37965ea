/-
  RouteAtlas: the routes of a file.

  A route file is read once.  Each configured method that it exports with a function gives a route;
  what could only be guessed is counted.

  * `handlerTypes` are the two types of a handler, `routeOf` its route;
  * `tableOf` is the table of a module, `analyze` that of a file.
-/
import RouteAtlas.Code.Module
import RouteAtlas.Doc
import RouteAtlas.FileTree.Basic
import RouteAtlas.Handler.Signature
import RouteAtlas.Journal
import RouteAtlas.Location
import RouteAtlas.Route
import RouteAtlas.Settings
import RouteAtlas.Template
import RouteAtlas.Text.Decoded

namespace RouteAtlas.Analysis

open RouteAtlas.Code RouteAtlas.Handler RouteAtlas.Typing

/-! ## Handlers -/

/-- The types of a handler. -/
structure HandlerTypes where
  declared : String
  /-- The type of its responses, if it has any. -/
  response : Option String
  deriving DecidableEq, Repr

/-- The types of a handler, none where one of them nests deeper than `limit`. -/
def handlerTypes? (settings : Settings) (limit : Nat) (root : Node) (d : FunctionDeclaration) :
    Option HandlerTypes := do
  let scope := Scope.of root (some d.function)
  let response ← responseType scope limit settings.responseHelpers d
  let declared ← declaredType scope limit d
  return ⟨declared, response⟩

/-- The types of a handler; types that nest too deep are not known. -/
def handlerTypes (settings : Settings) (limit : Nat) (file method : String) (root : Node)
    (d : FunctionDeclaration) : Recording HandlerTypes := do
  match handlerTypes? settings limit root d with
  | some types => return types
  | none =>
    logged .warning (file ++ ": type of " ++ method ++ " nests too deeply to render")
    fallBack "type_too_deep" file
    return ⟨settings.unknownType, none⟩

/-- The type of responses; where there are none it is not known. -/
def knownResponse (settings : Settings) (file : String) (response : Option String) :
    Recording String := do
  match response with
  | some type => return type
  | none =>
    fallBack "return_type_unknown" file
    return settings.unknownType

/-- The route of a handler whose file has a given path below the routes root. -/
def routeOf (settings : Settings) (limit : Nat) (file method path : String) (root : Node)
    (d : FunctionDeclaration) : Recording Route := do
  let types ← handlerTypes settings limit file method root d
  let returnType ← knownResponse settings file types.response
  let comments := Doc.adjacentTo d.startLine (Doc.blocksOf root)
  match Method.ofWord? method with
  | none => throw (.unknownMethod method)
  | some m =>
    return {
      method := m
      declaredType := types.declared
      returnType
      documentation := Doc.documentation settings.bodyTag comments
      queryParameters := queryParameters settings.queryAccessors d
      bodyType := Doc.bodyType settings.bodyTag comments
      urls := Template.templates path
      path }

/-! ## Files -/

/-- A table in progress, and the path of the file once it is known. -/
structure Progress where
  table : MethodTable := []
  path : Option String := none

/-- The path of a file below the routes root. -/
def pathOf (settings : Settings) (file : String) (known : Option String) : Recording String :=
  match known with
  | some path => return path
  | none =>
    Location.route settings.routesRootMarker settings.routeFileMarker settings.strictRoutesRoot file

/-- Adds the route of a method, if the module exports it with a function. -/
def addMethod (settings : Settings) (limit : Nat) (file : String) (root : Node)
    (exported : Declarations) (progress : Progress) (method : String) : Recording Progress := do
  match exported.of method with
  | [] => return progress
  | declarations =>
    match implementation? declarations with
    | none =>
      fallBack "non_function_export" file
      return progress
    | some d =>
      let path ← pathOf settings file progress.path
      let route ← routeOf settings limit file method path root d
      return { table := progress.table.set route.method route, path := some path }

/-- The routes of a module. -/
def tableOf (settings : Settings) (limit : Nat) (file : String) (root : Node) :
    Recording MethodTable := do
  let exported := exports root
  return (← settings.methods.foldlM (addMethod settings limit file root exported) {}).table

/-- The tree of the module in a file. -/
def readFile (t : FileTree) (file : String) : Recording Node := do
  match t.read (FilePath.ofText file) with
  | .error _ => failing (.unreadable file)
  | .ok bytes =>
    match Text.decoded bytes with
    | none => failing (.unreadable file)
    | some source =>
      match readModule (Dialect.ofFile file) source with
      | .error fault => failing (.malformed file fault.line)
      | .ok root => return root

/-- The routes of a file.  The work takes no time that is counted. -/
def analyze (t : FileTree) (settings : Settings) (file : String) (limit : Nat := depthLimit) :
    Recording MethodTable := do
  let root ← readFile t file
  let table ← tableOf settings limit file root
  counted fun m => m.countFile 0 table.length
  return table

end RouteAtlas.Analysis
