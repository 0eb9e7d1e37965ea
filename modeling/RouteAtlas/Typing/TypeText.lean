/-
  RouteAtlas: texts of types.

  A type is the text that the source would spell it with.

  * `distinct` keeps the first of equal texts, `joined` joins them, and `union` is the type of what
    may have any of several types: `any` absorbs the others, `never` adds nothing to them;
  * `arrayOf` and `elementOf` build and index arrays, `promiseOf` and `awaited` wrap and unwrap
    promises;
  * `isNamedType` says whether members of a type can be written with brackets behind it.
-/
import RouteAtlas.Text.Cut
import RouteAtlas.Text.Word

namespace RouteAtlas.Typing

open RouteAtlas.Text

/-- The type of what nothing is known of. -/
def any : String := "any"

/-- The type of what never has a value. -/
def never : String := "never"

/-! ## Unions -/

/-- Adds a text to a list unless it is empty or there already. -/
def addDistinct (types : List String) (t : String) : List String :=
  if t.isEmpty || types.contains t then types else types ++ [t]

/-- The texts that are not empty, each once, in the order of their first places. -/
def distinct (types : List String) : List String :=
  types.foldl addDistinct []

/-- Distinct texts with bars between them. -/
def joined (types : List String) : String :=
  joinWith " | " (distinct types)

/-- The type of what has one of several types. -/
def union (types : List String) : String :=
  let ts := distinct types
  if ts.isEmpty || ts.contains any then any
  else if ts.length > 1 then joinWith " | " (ts.erase never)
  else joinWith " | " ts

/-! ## Arrays and promises -/

/-- Whether a text occurs in another one. -/
def occursIn (part : List Char) : List Char → Bool
  | [] => part.isEmpty
  | c :: cs => (dropStartChars? part (c :: cs)).isSome || occursIn part cs

/-- The type of an array; unions and functions are put in parentheses. -/
def arrayOf (element : String) : String :=
  if occursIn " | ".toList element.toList || occursIn "=>".toList element.toList then
    "(" ++ element ++ ")[]"
  else element ++ "[]"

/-- The text between parentheses at its ends, or the text itself. -/
def unparenthesized (t : String) : String :=
  ((dropStart? "(" t).bind (dropEnd? ")")).getD t

/-- The type of what an array type is indexed to. -/
def elementOf (container : String) : String :=
  ((dropEnd? "[]" container).map unparenthesized).getD any

/-- The opening of a promise. -/
def promiseStart : String := "Promise<"

/-- The type of a promise, unless the text starts as one. -/
def promiseOf (t : String) : String :=
  if startsWith promiseStart t then t else promiseStart ++ t ++ ">"

/-- What waiting for a type gives. -/
def awaited (t : String) : String :=
  ((dropStart? promiseStart t).bind (dropEnd? ">")).getD t

/-! ## Names -/

/-- The first character of a name. -/
def isNameStart (c : Char) : Bool :=
  c.isAlpha || c == '_' || c == '$'

/-- Whether a text is a name: a letter, an underscore or a dollar sign, and then word characters and
    dollar signs. -/
def isName (cs : List Char) : Bool :=
  match cs with
  | [] => false
  | c :: rest => isNameStart c && rest.all fun d => isWord d || d == '$'

/-- Whether characters are keys in quotes and brackets, one behind the other; `inside` says whether
    a key is in progress. -/
def areKeys : Bool → List Char → Bool
  | inside, [] => !inside
  | true, '"' :: ']' :: rest => areKeys false rest
  | true, c :: rest => c != '"' && areKeys true rest
  | false, '[' :: '"' :: rest => areKeys true rest
  | false, _ :: _ => false

/-- Whether a text is a name, possibly with points, with keys in brackets behind it. -/
def isNamedType (t : String) : Bool :=
  match t.toList with
  | [] => false
  | c :: rest =>
    isNameStart c && areKeys false (rest.dropWhile fun d => isWord d || d == '$' || d == '.')

/-- A member of a named type. -/
def memberOf (type key : String) : String :=
  type ++ "[\"" ++ key ++ "\"]"

end RouteAtlas.Typing
