/-
  RouteAtlas: the text of a route map.

  * `Route.toJson` has the fields of a route in order, without those that say nothing;
  * `RouteMap.text` is the text of a map.
-/
import RouteAtlas.Json
import RouteAtlas.Route

namespace RouteAtlas

/-- A field that may be absent. -/
def optionalField (key : String) (value : Option String) : List (String × Json) :=
  match value with
  | some s => [(key, .text s)]
  | none => []

/-- A route as a value. -/
def Route.toJson (r : Route) : Json :=
  .object (
    [("method", .text r.method.word),
      ("declaredType", .text r.declaredType),
      ("returnType", .text r.returnType)] ++
    optionalField "documentation" r.documentation ++
    [("queryParameters", .list (r.queryParameters.map Json.text))] ++
    optionalField "bodyType" r.bodyType ++
    [("urls", .list (r.urls.map Json.text)),
      ("path", .text r.path)])

/-- A table as a value. -/
def MethodTable.toJson (table : MethodTable) : Json :=
  .object (table.map fun entry => (entry.1.word, entry.2.toJson))

/-- A map as a value. -/
def RouteMap.toJson (map : RouteMap) : Json :=
  .object (map.map fun entry => (entry.1, MethodTable.toJson entry.2))

/-- The text of a map. -/
def RouteMap.text (map : RouteMap) : String :=
  (RouteMap.toJson map).render

end RouteAtlas
