/-
  RouteAtlas: paths of files.

  A path is a root, possibly empty, and the names behind it.  Slashes separate names; empty names and
  single points are dropped, double points are kept.

  * `FilePath.ofText` reads a path, `FilePath.text` writes it;
  * `FilePath.parent`, `FilePath.name` and `FilePath.suffix` are its parts.
-/
import RouteAtlas.Text.Cut

namespace RouteAtlas

open RouteAtlas.Text

/-- A path: what it starts at, and the names behind that. -/
structure FilePath where
  /-- Empty for a relative path. -/
  root : String
  names : List String
  deriving DecidableEq, Repr, Inhabited

namespace FilePath

/-- The root of a path; two slashes, and no more, are a root of their own. -/
def rootOf : List Char → String
  | '/' :: '/' :: '/' :: _ => "/"
  | '/' :: '/' :: _ => "//"
  | '/' :: _ => "/"
  | _ => ""

/-- Whether a part between slashes is a name. -/
def isName (part : String) : Bool :=
  part != "" && part != "."

/-- Reads a path. -/
def ofText (s : String) : FilePath :=
  ⟨rootOf s.toList, (splitOn '/' s).filter isName⟩

/-- Writes a path; the empty one is a point. -/
def text (p : FilePath) : String :=
  let s := p.root ++ joinWith "/" p.names
  if s.isEmpty then "." else s

/-- Whether a path has a root. -/
def isAbsolute (p : FilePath) : Bool :=
  p.root != ""

/-- The path without its last name. -/
def parent (p : FilePath) : FilePath :=
  { p with names := p.names.dropLast }

/-- The last name of a path. -/
def name (p : FilePath) : String :=
  p.names.getLast?.getD ""

/-- A path with a name behind it. -/
def child (p : FilePath) (name : String) : FilePath :=
  { p with names := p.names ++ [name] }

/-- The end of a name from its last point on; a point at either end of the name starts no suffix. -/
def suffixOf (name : List Char) : List Char :=
  let back := name.reverse.takeWhile fun c => c != '.'
  let front := name.take (name.length - back.length)
  if back.isEmpty || decide (front.length < 2) then [] else '.' :: back.reverse

/-- The suffix of the last name of a path. -/
def suffix (p : FilePath) : String :=
  .ofList (suffixOf p.name.toList)

end FilePath

end RouteAtlas
