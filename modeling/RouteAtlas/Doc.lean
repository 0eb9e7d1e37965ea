/-
  RouteAtlas: documentation comments.

  A block is a comment that starts with a slash and two stars.  Its lines are those of the comment
  without the frame of slashes and stars.  A line that starts with an at sign and a name opens a tag,
  which runs to the next tag or to the end.

  * `cleanLines` are the lines of a comment, `tagsOf` the tags of lines, `Block.ofComment` joins
    both;
  * `blocksOf` are the blocks of a module, `adjacentTo` those that end right before a line;
  * `bodyType` and `documentation` are what blocks say of the body of a request, and the rest.
-/
import RouteAtlas.Code.Walk
import RouteAtlas.Text.Cut
import RouteAtlas.Text.Word

namespace RouteAtlas.Doc

open RouteAtlas.Code RouteAtlas.Text

/-! ## Lines -/

/-- A comment without its opening and closing marks. -/
def unframed (comment : List Char) : List Char :=
  let body := trimChars comment
  let body :=
    match dropStartChars? ['/', '*', '*'] body with
    | some rest => rest
    | none => (dropStartChars? ['/', '*'] body).getD body
  (dropEndChars? ['*', '/'] body).getD body

/-- A line without the star at its start and one space behind the star. -/
def ungutter (line : List Char) : List Char :=
  match trimChars line with
  | '*' :: ' ' :: rest => trimEndChars rest
  | '*' :: rest => trimEndChars rest
  | rest => trimEndChars rest

/-- Whether a line has blanks only. -/
def isBlankLine (line : List Char) : Bool :=
  line.all isBlank

/-- The lines between the first and the last that is not blank. -/
def trimLines (lines : List (List Char)) : List (List Char) :=
  ((lines.dropWhile isBlankLine).reverse.dropWhile isBlankLine).reverse

/-- The lines of a comment. -/
def cleanLines (comment : String) : List String :=
  (trimLines ((splitChars '\n' (unframed comment.toList)).map ungutter)).map String.ofList

/-! ## Tags -/

/-- A tag: its name, what it says, and the first and the last of its lines. -/
structure Tag where
  name : String
  comment : Option String
  firstLine : Nat
  lastLine : Nat
  deriving DecidableEq, Repr

/-- The first character of the name of a tag. -/
def isTagStart (c : Char) : Bool :=
  c.isAlpha || c == '_'

/-- The name and the text of a line that opens a tag. -/
def tagStart? (line : String) : Option (String × String) :=
  match trimChars line.toList with
  | '@' :: c :: rest =>
    if isTagStart c then
      let isPart := fun d => isWord d || d == '-'
      let text := trimStartChars (rest.dropWhile isPart)
      if text.contains '\n' then none
      else some (.ofList (c :: rest.takeWhile isPart), .ofList text)
    else none
  | _ => none

/-- A tag in progress: its name, its lines so far, the last one first, and its first line. -/
structure OpenTag where
  name : String
  parts : List String
  firstLine : Nat

/-- The text, or none if it is empty. -/
def nonempty? (s : String) : Option String :=
  if s.isEmpty then none else some s

/-- Closes a tag at its last line. -/
def OpenTag.close (t : OpenTag) (lastLine : Nat) : Tag :=
  ⟨t.name, nonempty? (trim (joinWith "\n" t.parts.reverse)), t.firstLine, lastLine⟩

/-- The tags of lines from the line `index` on; `current` is the tag in progress. -/
def tagsFrom (index : Nat) (current : Option OpenTag) : List String → List Tag
  | [] =>
    match current with
    | some t => [t.close (index - 1)]
    | none => []
  | line :: rest =>
    match tagStart? line, current with
    | some (name, text), some t =>
      t.close (index - 1) :: tagsFrom (index + 1) (some ⟨name, [text], index⟩) rest
    | some (name, text), none => tagsFrom (index + 1) (some ⟨name, [text], index⟩) rest
    | none, some t => tagsFrom (index + 1) (some { t with parts := line :: t.parts }) rest
    | none, none => tagsFrom (index + 1) none rest

/-- The tags of lines. -/
def tagsOf (lines : List String) : List Tag :=
  tagsFrom 0 none lines

/-! ## Blocks -/

/-- A documentation comment with the lines it stands on. -/
structure Block where
  text : String
  startLine : Int
  endLine : Int
  lines : List String
  tags : List Tag
  deriving DecidableEq, Repr

/-- The block of a comment. -/
def Block.ofComment (text : String) (startLine endLine : Int) : Block :=
  let lines := cleanLines text
  ⟨text, startLine, endLine, lines, tagsOf lines⟩

/-- Whether a comment is a documentation comment. -/
def isDocComment (n : Node) : Bool :=
  n.isComment && startsWith "/**" n.text && n.text != "/**/"

/-- The documentation comments of a module in source order. -/
def blocksOf (root : Node) : List Block :=
  (root.descendants.filter isDocComment).map fun n => .ofComment n.text n.startLine n.endLine

/-- The blocks that end on the line right before a given one. -/
def adjacentTo (line : Int) (blocks : List Block) : List Block :=
  blocks.filter fun b => b.endLine + 1 == line

/-! ## What blocks say -/

/-- What the last tag of a name says. -/
def bodyType (tag : String) (blocks : List Block) : Option String :=
  (((blocks.flatMap Block.tags).filter fun t => t.name == tag).getLast?).bind Tag.comment

/-- Whether a line belongs to a tag of a name. -/
def Block.inTag (b : Block) (tag : String) (index : Nat) : Bool :=
  b.tags.any fun t => t.name == tag && decide (t.firstLine ≤ index) && decide (index ≤ t.lastLine)

/-- The lines of a block outside the tags of a name. -/
def Block.linesOutside (b : Block) (tag : String) : List String :=
  (b.lines.zipIdx.filter fun entry => !b.inTag tag entry.2).map Prod.fst

/-- The text of a block outside the tags of a name. -/
def Block.textOutside (b : Block) (tag : String) : String :=
  trim (joinWith "\n" (b.linesOutside tag))

/-- The text of blocks outside the tags of a name, none if there is no text. -/
def documentation (tag : String) (blocks : List Block) : Option String :=
  nonempty? (joinWith "\n" ((blocks.map fun b => b.textOutside tag).filter fun t => !t.isEmpty))

end RouteAtlas.Doc
