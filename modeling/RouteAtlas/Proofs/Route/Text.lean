/-
  RouteAtlas: the text of a route map and back.

  * `Route.ofJson?`, `MethodTable.ofJson?` and `RouteMap.ofJson?` read routes, tables and maps; a field of a
    route that may be absent is read as one that there is not;
  * `ofJson?_toJson`: they read what was made a value;
  * `distinct_toJson`: in the value of a map all keys of an object are different, if the map has each file
    once and each table has each method once;
  * `text_determines_map`: the text of a map denotes one value, and the map is read from it.
-/
import Mathlib.Data.List.Nodup
import RouteAtlas.Proofs.Each
import RouteAtlas.Proofs.Json.Writing
import RouteAtlas.Route.Text

namespace RouteAtlas

/-! ## Reading values -/

namespace Json

/-- The text that a value is. -/
def text? : Json → Option String
  | text value => some value
  | _ => none

/-- The items of a list. -/
def items? : Json → Option (List Json)
  | list items => some items
  | _ => none

/-- The members of an object. -/
def members? : Json → Option (List (String × Json))
  | object members => some members
  | _ => none

/-- The texts in a list of texts. -/
def texts? (value : Json) : Option (List String) := do
  (← value.items?).mapM text?

/-- A field of an object. -/
def field? {α : Type} (read? : Json → Option α) (members : List (String × Json)) (key : String) : Option α :=
  (members.lookup key).bind read?

/-- A field of an object that may be absent. -/
def absentField? {α : Type} (read? : Json → Option α) (members : List (String × Json)) (key : String) :
    Option (Option α) :=
  match members.lookup key with
  | some value => (read? value).map some
  | none => some none

theorem texts?_list (values : List String) : texts? (.list (values.map text)) = some values := by
  have htext : ∀ value, text? (text value) = some value := fun _ => rfl
  exact mapM_map_some htext values

end Json

open Json

/-- Reads a route. -/
def Route.ofJson? (value : Json) : Option Route := do
  let members ← value.members?
  return {
    method := ← field? (fun v => v.text?.bind Method.ofWord?) members "method"
    declaredType := ← field? text? members "declaredType"
    returnType := ← field? text? members "returnType"
    documentation := ← absentField? text? members "documentation"
    queryParameters := ← field? texts? members "queryParameters"
    bodyType := ← absentField? text? members "bodyType"
    urls := ← field? texts? members "urls"
    path := ← field? text? members "path" }

/-- Reads a table. -/
def MethodTable.ofJson? (value : Json) : Option MethodTable := do
  (← value.members?).mapM fun member => do
    return (← Method.ofWord? member.1, ← Route.ofJson? member.2)

/-- Reads a map. -/
def RouteMap.ofJson? (value : Json) : Option RouteMap := do
  (← value.members?).mapM fun member => do
    return (member.1, ← MethodTable.ofJson? member.2)

theorem Route.ofJson?_toJson (r : Route) : Route.ofJson? r.toJson = some r := by
  obtain ⟨method, declaredType, returnType, documentation, queryParameters, bodyType, urls, path⟩ := r
  cases documentation <;> cases bodyType <;>
    simp [ofJson?, toJson, members?, field?, absentField?, optionalField, List.lookup_cons, text?, texts?_list,
      Method.ofWord?_word]

theorem MethodTable.ofJson?_toJson (table : MethodTable) : MethodTable.ofJson? table.toJson = some table :=
  mapM_map_some (fun entry => by
    simp only [Method.ofWord?_word, Route.ofJson?_toJson]
    rfl) table

/-- **Maps are read from what they are made.** -/
theorem RouteMap.ofJson?_toJson (map : RouteMap) : RouteMap.ofJson? (RouteMap.toJson map) = some map :=
  mapM_map_some (fun entry => by
    simp only [MethodTable.ofJson?_toJson]
    rfl) map

/-! ## Keys -/

/-- All keys of an object are different, in every object of a value. -/
inductive Json.Distinct : Json → Prop
  | text (value : String) : Distinct (.text value)
  | list {items : List Json} : (∀ item ∈ items, Distinct item) → Distinct (.list items)
  | object {members : List (String × Json)} : (members.map Prod.fst).Nodup →
      (∀ member ∈ members, Distinct member.2) → Distinct (.object members)

theorem distinct_texts (values : List String) : Distinct (.list (values.map text)) :=
  .list (List.forall_mem_map.2 fun value _ => .text value)

theorem Route.distinct_toJson (r : Route) : r.toJson.Distinct := by
  obtain ⟨method, declaredType, returnType, documentation, queryParameters, bodyType, urls, path⟩ := r
  refine .object ?_ ?_
  · cases documentation <;> cases bodyType <;> simp [optionalField]
  · cases documentation <;> cases bodyType <;>
      simp [optionalField, Distinct.text, distinct_texts]

theorem MethodTable.distinct_toJson {table : MethodTable} (h : (table.map Prod.fst).Nodup) :
    table.toJson.Distinct := by
  have hwords : Function.Injective Method.word := fun m n hmn =>
    Option.some.inj ((Method.ofWord?_word m).symm.trans (hmn ▸ Method.ofWord?_word n))
  refine .object ?_ (List.forall_mem_map.2 fun entry _ => entry.2.distinct_toJson)
  have hkeys := h.map hwords
  rwa [List.map_map] at hkeys ⊢

/-- In the value of a map all keys of an object are different, if the map has each file once and each table
    has each method once. -/
theorem RouteMap.distinct_toJson {map : RouteMap} (hfiles : (map.map Prod.fst).Nodup)
    (hmethods : ∀ entry ∈ map, (entry.2.map Prod.fst).Nodup) : (RouteMap.toJson map).Distinct := by
  refine .object ?_ (List.forall_mem_map.2 fun entry hentry =>
    MethodTable.distinct_toJson (hmethods entry hentry))
  rwa [List.map_map]

/-! ## Texts -/

/-- **The text of a map determines the map.**  It denotes one value, that of the map, in which no object has
    a key twice if the map has each file once and each table has each method once.  The map is read from
    it as it is, with its files, methods, addresses and parameters in their order, and so it is where the
    line ends behind the text.  Different maps have different texts, also where one of them has an empty
    text and the other one none. -/
theorem text_determines_map (map : RouteMap) :
    (∀ value, Json.Denotes (RouteMap.text map) value ↔ value = RouteMap.toJson map) ∧
    ((map.map Prod.fst).Nodup → (∀ entry ∈ map, (entry.2.map Prod.fst).Nodup) →
      (RouteMap.toJson map).Distinct) ∧
    (∀ ending ∈ ["", "\n"], (Json.read (RouteMap.text map ++ ending)).bind RouteMap.ofJson? = some map) ∧
    ∀ other, other ≠ map → RouteMap.text other ≠ RouteMap.text map := by
  have hspace : ∀ ending ∈ ["", "\n"], ∀ c ∈ ending.toList, isSpace c = true := by simp [isSpace]
  have hread : ∀ (map : RouteMap), ∀ ending ∈ ["", "\n"],
      (Json.read (RouteMap.text map ++ ending)).bind RouteMap.ofJson? = some map := by
    intro map ending hending
    rw [RouteMap.text, read_render _ (hspace ending hending)]
    exact RouteMap.ofJson?_toJson map
  have hdenotes : Denotes (RouteMap.text map) (RouteMap.toJson map) := by
    have hempty := denotes_render (RouteMap.toJson map) (hspace "" (by simp))
    rwa [String.append_empty] at hempty
  refine ⟨fun value => ⟨fun h => h.unique hdenotes, fun h => h ▸ hdenotes⟩, RouteMap.distinct_toJson,
    hread map, fun other hne htext => hne ?_⟩
  have hmap := hread map "" (by simp)
  rw [← htext, hread other "" (by simp)] at hmap
  exact Option.some.inj hmap

/-- A map with a route whose documentation is a given one. -/
def documentedMap (documentation : Option String) : RouteMap :=
  [("/src/routes/+server.ts", [(.get,
    { method := .get, declaredType := "() => \x7b\x7d", returnType := "any", documentation
      queryParameters := ["\"q\\", "q"], bodyType := none, urls := ["/"], path := "/" })])]

/-- An empty documentation is read back, and is not taken for none. -/
theorem text_determines_map_documented :
    (RouteMap.toJson (documentedMap (some ""))).Distinct ∧
    (Json.read (RouteMap.text (documentedMap (some "")) ++ "\n")).bind RouteMap.ofJson? =
      some (documentedMap (some "")) ∧
    RouteMap.text (documentedMap none) ≠ RouteMap.text (documentedMap (some "")) := by
  obtain ⟨-, hdistinct, hread, hother⟩ := text_determines_map (documentedMap (some ""))
  exact ⟨hdistinct (by decide) (by decide), hread "\n" (by decide), hother _ (by decide)⟩

end RouteAtlas
