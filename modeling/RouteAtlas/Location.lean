/-
  RouteAtlas: routes of files by their places.

  A route file lies below the routes root, which a marker names, and the directories between the two
  are its route.

  * `normal` is the normal form of a path: forward slashes, no empty, `.` or avoidable `..` steps;
  * `belowRoot?` is what follows the last place of the marker in a path, whole names only;
  * `routeOf` is the route of a file, and `route` records where no marker was found.
-/
import RouteAtlas.Journal
import RouteAtlas.Text.Cut

namespace RouteAtlas.Location

open RouteAtlas.Text

/-! ## Normal form -/

/-- A backslash separates like a slash. -/
def slash (c : Char) : Char :=
  if c == '\\' then '/' else c

/-- Takes a step from a place, which is given by its names, the last one first: `..` goes back, and
    stays at the root of a rooted path. -/
def follow (rooted : Bool) (place : List (List Char)) (step : List Char) : List (List Char) :=
  if step == [] || step == ['.'] then place
  else if step == ['.', '.'] then
    match place with
    | [] => if rooted then [] else [step]
    | last :: rest => if last == ['.', '.'] then step :: place else rest
  else step :: place

/-- Whether a path starts at the root. -/
def isRooted (path : List Char) : Bool :=
  path.head? == some '/'

/-- The names of a path in normal form. -/
def names (path : List Char) : List (List Char) :=
  ((splitChars '/' path).foldl (follow (isRooted path)) []).reverse

/-- The path of names. -/
def ofNames (rooted : Bool) (names : List (List Char)) : List Char :=
  let joined := joinChars ['/'] names
  if rooted then '/' :: joined else if joined.isEmpty then ['.'] else joined

/-- The normal form of a path. -/
def normalChars (path : List Char) : List Char :=
  let slashed := path.map slash
  ofNames (isRooted slashed) (names slashed)

/-- The normal form of a path. -/
def normal (path : String) : String :=
  .ofList (normalChars path.toList)

/-! ## The routes root -/

/-- Whether a name ends where the rest of a path starts. -/
def isNameEnd (rest : List Char) : Bool :=
  rest.isEmpty || rest.head? == some '/'

/-- What follows a marker at the start of a path, if it ends with a whole name. -/
def behind? (marker path : List Char) : Option (List Char) :=
  (dropStartChars? marker path).filter isNameEnd

/-- What follows the last place of a marker in a path; `fresh` says whether a name may start here. -/
def lastBehind? (marker : List Char) (fresh : Bool) (path : List Char) : Option (List Char) :=
  let here := if fresh then behind? marker path else none
  match path with
  | [] => here
  | c :: rest => (lastBehind? marker (c == '/') rest).or here

/-- What follows the routes root in a path in normal form.  A marker without names is the root of
    all files, and nothing but that root lies there. -/
def belowRoot? (marker path : List Char) : Option (List Char) :=
  if marker.isEmpty then (if path == ['/'] then some [] else none)
  else lastBehind? marker true path

/-- The names of a marker, without slashes at the ends. -/
def plainMarker (marker : String) : List Char :=
  stripChars ['/'] (normalChars marker.toList)

/-! ## Routes -/

/-- The directory of a path to a file with a given name. -/
def directoryOf (fileName path : List Char) : List Char :=
  match dropEndChars? ('/' :: fileName) path with
  | some directory => directory
  | none => if path == fileName then [] else path

/-- The route that the rest of a path behind the routes root is. -/
def routeOf (fileName : String) (rest : List Char) : String :=
  let directory := directoryOf fileName.toList rest
  .ofList (if isRooted directory then directory else '/' :: directory)

/-- The route of a file by its place.  If the routes root is not in the path, the whole path stands in
    for the rest behind it, unless this is forbidden. -/
def route (marker fileName : String) (strict : Bool) (file : String) : Recording String := do
  let path := normalChars file.toList
  match belowRoot? (plainMarker marker) path with
  | some rest => return routeOf fileName rest
  | none =>
    if strict then failing (.outsideRoot file marker)
    logged .warning
      ("Routes root '" ++ marker ++ "' not found in " ++ file ++ "; using the full path")
    fallBack "routes_root_missing" file
    return routeOf fileName path

end RouteAtlas.Location
