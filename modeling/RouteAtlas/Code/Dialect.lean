/-
  RouteAtlas: the forms of the language.

  * `Dialect.word` is the name of a form, `Dialect.ofWord?` reads it;
  * `Dialect.ofFile` is the form that a file is written in, by the suffix of its name.
-/
import RouteAtlas.FilePath

namespace RouteAtlas.Code

/-- The forms of the language: with type assertions in angle brackets, or with elements. -/
inductive Dialect where
  | plain
  | markup
  deriving DecidableEq, Repr, Inhabited

namespace Dialect

/-- The name of a form. -/
def word : Dialect → String
  | plain => "typescript"
  | markup => "tsx"

/-- The form with a name. -/
def ofWord? (name : String) : Option Dialect :=
  [plain, markup].find? fun d => d.word == name

theorem ofWord?_word (d : Dialect) : ofWord? d.word = some d := by
  cases d <;> rfl

/-- The suffixes of files with elements. -/
def markupSuffixes : List String :=
  [".tsx", ".jsx"]

/-- The form that a file is written in; the case of its suffix does not matter. -/
def ofFile (file : String) : Dialect :=
  if markupSuffixes.contains (FilePath.ofText file).suffix.toLower then markup else plain

end Dialect

end RouteAtlas.Code
