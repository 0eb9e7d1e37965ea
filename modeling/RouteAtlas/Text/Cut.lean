/-
  RouteAtlas: cutting and joining texts.

  * `splitOn` cuts a text at every occurrence of a character, `joinWith` is its inverse
    (`joinChars` on character lists).
  * `dropStart?` and `dropEnd?` take a given text off an end; `startsWith`, `endsWith` say whether
    it is there.
  * `stripChars` drops characters of a set from both ends.
-/
import RouteAtlas.Text.Blank

namespace RouteAtlas.Text

/-! ## Ends -/

/-- The characters after `start`, if the list begins with it. -/
def dropStartChars? : List Char → List Char → Option (List Char)
  | [], cs => some cs
  | _ :: _, [] => none
  | p :: ps, c :: cs => if p == c then dropStartChars? ps cs else none

/-- The characters before `stop`, if the list ends with it. -/
def dropEndChars? (stop cs : List Char) : Option (List Char) :=
  (dropStartChars? stop.reverse cs.reverse).map List.reverse

/-- The text after `start`, if it begins with it. -/
def dropStart? (start s : String) : Option String :=
  (dropStartChars? start.toList s.toList).map String.ofList

/-- The text before `stop`, if it ends with it. -/
def dropEnd? (stop s : String) : Option String :=
  (dropEndChars? stop.toList s.toList).map String.ofList

/-- Whether the text begins with `start`. -/
def startsWith (start s : String) : Bool :=
  (dropStartChars? start.toList s.toList).isSome

/-- Whether the text ends with `stop`. -/
def endsWith (stop s : String) : Bool :=
  (dropEndChars? stop.toList s.toList).isSome

/-- The characters between the leading and the trailing members of a set. -/
def stripChars (set : List Char) (cs : List Char) : List Char :=
  ((cs.dropWhile set.contains).reverse.dropWhile set.contains).reverse

/-- The text between its leading and its trailing members of a set. -/
def strip (set : List Char) (s : String) : String :=
  .ofList (stripChars set s.toList)

/-! ## Parts -/

/-- The parts between the occurrences of a character; `part` is the part in progress. -/
def splitFrom (sep : Char) (part : List Char) : List Char → List (List Char)
  | [] => [part.reverse]
  | c :: cs =>
    if c == sep then part.reverse :: splitFrom sep [] cs else splitFrom sep (c :: part) cs

/-- The parts between the occurrences of a character, empty ones too. -/
def splitChars (sep : Char) (cs : List Char) : List (List Char) :=
  splitFrom sep [] cs

/-- The parts of a text between the occurrences of a character, empty ones too. -/
def splitOn (sep : Char) (s : String) : List String :=
  (splitChars sep s.toList).map String.ofList

/-- Texts with a separator between any two of them. -/
def joinWith (sep : String) (parts : List String) : String :=
  .ofList (joinChars sep.toList (parts.map String.toList))

end RouteAtlas.Text
