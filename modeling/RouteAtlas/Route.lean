/-
  RouteAtlas: routes.

  A route is what a handler of one method does at one place.  A route file has a table of routes by
  method, and a project has a map of tables by file.

  * `Method.ofWord?` reads a method;
  * `MethodTable.set` puts a route into a table: a new method comes last.
-/
namespace RouteAtlas

/-- The methods that routes can have. -/
inductive Method where
  | get
  | post
  | put
  | delete
  deriving DecidableEq, Repr

namespace Method

/-- The word for a method. -/
def word : Method → String
  | get => "GET"
  | post => "POST"
  | put => "PUT"
  | delete => "DELETE"

/-- The method with a word. -/
def ofWord? (s : String) : Option Method :=
  [get, post, put, delete].find? fun m => m.word == s

theorem ofWord?_word (m : Method) : ofWord? m.word = some m := by
  cases m <;> rfl

end Method

/-- What a handler does. -/
structure Route where
  method : Method
  /-- The type of the handler. -/
  declaredType : String
  /-- The type of what it responds with. -/
  returnType : String
  documentation : Option String
  /-- The names that it asks the query for. -/
  queryParameters : List String
  /-- The type of the body of a request. -/
  bodyType : Option String
  /-- The templates of the addresses at which it is reached. -/
  urls : List String
  /-- The place of its file below the routes root. -/
  path : String
  deriving DecidableEq, Repr

/-- The routes of a file by method. -/
abbrev MethodTable := List (Method × Route)

/-- Puts a route into a table: in the place of the route with this method, or last. -/
def MethodTable.set (table : MethodTable) (method : Method) (route : Route) : MethodTable :=
  match table with
  | [] => [(method, route)]
  | (m, r) :: rest =>
    if m == method then (m, route) :: rest else (m, r) :: MethodTable.set rest method route

/-- The tables of files, by their paths. -/
abbrev RouteMap := List (String × MethodTable)

end RouteAtlas
