/-
  RouteAtlas: blanks and the texts between them.

  A blank is a white-space character of any script: tab to carriage return, the four information
  separators, the space, the next-line control and the Unicode spaces and line separators.

  * `trim`, `trimStart`, `trimEnd` drop blanks at the ends of a text.
  * `collapse` is the text's words joined by single spaces; `squeeze` is its words joined by
    nothing.
-/
namespace RouteAtlas.Text

/-- A white-space character of any script. -/
def isBlank (c : Char) : Bool :=
  let n := c.toNat
  (decide (9 ≤ n) && decide (n ≤ 13)) || (decide (28 ≤ n) && decide (n ≤ 32)) || n == 0x85 ||
    n == 0xa0 || n == 0x1680 || (decide (0x2000 ≤ n) && decide (n ≤ 0x200a)) ||
    n == 0x2028 || n == 0x2029 || n == 0x202f || n == 0x205f || n == 0x3000

theorem isBlank_space : isBlank ' ' = true := by decide

/-! ## Trimming -/

/-- The characters after the leading blanks. -/
def trimStartChars (cs : List Char) : List Char :=
  cs.dropWhile isBlank

/-- The characters before the trailing blanks. -/
def trimEndChars (cs : List Char) : List Char :=
  (cs.reverse.dropWhile isBlank).reverse

/-- The characters between the leading and the trailing blanks. -/
def trimChars (cs : List Char) : List Char :=
  trimEndChars (trimStartChars cs)

/-- The text after its leading blanks. -/
def trimStart (s : String) : String :=
  .ofList (trimStartChars s.toList)

/-- The text before its trailing blanks. -/
def trimEnd (s : String) : String :=
  .ofList (trimEndChars s.toList)

/-- The text between its leading and its trailing blanks. -/
def trim (s : String) : String :=
  .ofList (trimChars s.toList)

/-! ## Words -/

/-- The runs of characters that are no blanks; `run` is the run in progress. -/
def wordsFrom (run : List Char) : List Char → List (List Char)
  | [] => if run.isEmpty then [] else [run.reverse]
  | c :: cs =>
    if isBlank c then
      if run.isEmpty then wordsFrom [] cs else run.reverse :: wordsFrom [] cs
    else wordsFrom (c :: run) cs

/-- The longest runs of characters that are no blanks, in order. -/
def words (cs : List Char) : List (List Char) :=
  wordsFrom [] cs

/-- Lists of characters with a separator between any two of them. -/
def joinChars (sep : List Char) : List (List Char) → List Char
  | [] => []
  | [cs] => cs
  | cs :: rest => cs ++ sep ++ joinChars sep rest

/-- The words of a text, one space between any two. -/
def collapse (s : String) : String :=
  .ofList (joinChars [' '] (words s.toList))

/-- The words of a text with nothing between them. -/
def squeeze (s : String) : String :=
  .ofList (words s.toList).flatten

end RouteAtlas.Text
