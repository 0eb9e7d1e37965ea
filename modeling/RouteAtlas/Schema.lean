/-
  RouteAtlas: schemas of types.

  Types are turned into schemas by a converter, which is given the declaration of a type.

  * `isConvertible` says which types are worth it;
  * `schemaOf` hands a type to a converter and gives back the schema.

  What stands for a type that nothing is known of is taken from the settings that the program starts
  with, whatever settings a project is scanned with.
-/
import RouteAtlas.Settings

namespace RouteAtlas.Schema

/-- Turns the declaration of a type into a schema, as work of any sort. -/
abbrev Converter (m : Type → Type) (α : Type) := String → m α

/-- The declaration of a type under a name. -/
def declarationOf (type name : String) : String :=
  "export type " ++ name ++ " = " ++ type

/-- Whether a type says something: it is there, not empty, and not the text that the program starts
    with for a type that nothing is known of. -/
def isConvertible (type : Option String) (start : Settings := {}) : Bool :=
  match type with
  | some t => t != "" && t != start.unknownType
  | none => false

/-- The schema of a type under a name, and none if the type says nothing. -/
def schemaOf {m : Type → Type} [Monad m] {α : Type} (convert : Converter m α)
    (type : Option String) (name : String := "Response") (start : Settings := {}) : m (Option α) :=
  match type with
  | some t => if isConvertible type start then some <$> convert (declarationOf t name) else pure none
  | none => pure none

end RouteAtlas.Schema
