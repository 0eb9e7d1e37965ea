/-
  RouteAtlas: elements of the markup dialect.

  An element has a name, attributes and contents, or is empty; without a name and attributes it is
  a fragment.  Its contents are text, elements and expressions in braces.

  * `markup` reads an element.
-/
import RouteAtlas.Code.Phrase.Expression

namespace RouteAtlas.Code

variable (g : Grammar)

/-- A character of a word that hyphens go on with. -/
def isTagLetter (c : Char) : Bool :=
  c.isAlphanum || c == '_' || c == '$'

/-- A word of a name in a tag, which hyphens may go on with; says whether they do. -/
def tagWord : Reading Bool := do
  let t ← peek
  let s ← sourceText
  unless t.kind == .word do fail
  let stop := skipWhile s isTagLetter t.start.offset
  if stop == t.stop.offset && charAt s stop == '-' then
    resume ⟨skipWhile s (fun c => isTagLetter c || c == '-') stop, t.start.line⟩
    return true
  else
    let _ ← take
    return false

/-- The name of an attribute: a word, with another one behind a colon if there is one. -/
def attributeName : Reading Unit := do
  let _ ← tagWord
  if ← acceptPunct ":" then
    let _ ← tagWord

/-- The name of an element: like that of an attribute, or plain words with points between them; says
    whether type arguments may follow. -/
def tagName : Reading Bool := do
  let hyphens ← tagWord
  if ← acceptPunct ":" then
    let _ ← tagWord
    return false
  else if hyphens then return false
  else
    repeated do
      if ← acceptPunct "." then
        let _ ← expectAnyWord
        return true
      else return false
    return true

/-- Behind the mark that is next, without reading a token there. -/
def behindMark (mark : String) : Reading Position := do
  let t ← peek
  unless t.isPunct mark do fail
  return t.stop

/-- An expression in braces, which may be missing or spread; the closing brace is next. -/
def bracedExpression : Reading (List Node) := do
  expectPunct "\x7b"
  if ← atPunct "\x7d" then return []
  else if ← acceptPunct "..." then return [← enclosed (g .expression)]
  else return [← enclosed (sequence g)]

/-- The offset after at least one and at most `most` characters of a class and a semicolon behind
    them. -/
def referenceNameEnd? (s : String) (p : Char → Bool) (most i : Nat) : Option Nat :=
  let j := skipWhile s p i
  if j > i && j ≤ i + most && charAt s j == ';' then some (j + 1) else none

/-- The offset after the character reference that starts with the ampersand at an offset, if one
    does: a name, or the number of a character in decimal or hexadecimal digits. -/
def referenceEnd? (s : String) (i : Nat) : Option Nat :=
  let d := charAt s (i + 2)
  if charAt s (i + 1) == '#' then
    if d == 'x' || d == 'X' then referenceNameEnd? s isHexDigit 6 (i + 3)
    else referenceNameEnd? s Char.isDigit 5 (i + 2)
  else referenceNameEnd? s Char.isAlpha 30 (i + 1)

/-- The offset after a string of a tag whose opening quote is passed.  It ends with the next quote of
    its kind; a backslash or a line's end stands for itself.  An ampersand in front of a letter or a
    number sign starts a reference, and goes with any other character behind it. -/
def tagStringEnd? (s : String) (quote : Char) : Nat → Nat → Option Nat
  | 0, _ => none
  | fuel + 1, i =>
    let j := skipWhile s (fun c => c != quote && c != '&') i
    let c := charAt s (j + 1)
    if j ≥ s.utf8ByteSize then none
    else if charAt s j == quote then some (j + 1)
    else if c.isAlpha || c == '#' then (referenceEnd? s j).bind (tagStringEnd? s quote fuel)
    else tagStringEnd? s quote fuel (next s (j + 1))

/-- Reads a string of a tag. -/
def tagString : Reading Unit := do
  let t ← peek
  let s ← sourceText
  let i := t.start.offset
  let quote := charAt s i
  unless quote == '"' || quote == '\'' do fail
  match tagStringEnd? s quote (s.utf8ByteSize + 1 - i) (i + 1) with
  | some stop => resume (t.start.moveTo s stop)
  | none => fail

/-- An attribute of a tag. -/
def tagAttribute : Reading Node := do
  let start ← here
  if ← atPunct "\x7b" then
    let es ← bracedExpression g
    expectPunct "\x7d"
    finish .construct start es
  else
    attributeName
    if ← acceptPunct "=" then
      if ← atPunct "\x7b" then
        let es ← bracedExpression g
        expectPunct "\x7d"
        finish .construct start es
      else if ← atPunct "<" then
        let e ← g .element
        finish .construct start [e]
      else
        tagString
        finish .construct start []
    else finish .construct start []

/-- The characters that are no text of an element. -/
def contentMarks : List Char :=
  ['<', '>', '{', '}', '&']

/-- Reads the contents of an element from a position on, up to the opening of its closing tag, which
    is next afterwards. -/
def contentsFrom : Nat → Position → List Node → Reading (List Node)
  | 0, _, _ => fail
  | fuel + 1, p, nodes => do
    let s ← sourceText
    let stop := p.moveTo s (skipWhile s (fun c => !contentMarks.contains c) p.offset)
    if stop.offset ≥ s.utf8ByteSize then fail
    else
      let c := charAt s stop.offset
      if c == '&' then
        match referenceEnd? s stop.offset with
        | some i => contentsFrom fuel ⟨i, stop.line⟩ nodes
        | none => fail
      else if c == '{' then
        resume stop
        let es ← bracedExpression g
        let behind ← behindMark "\x7d"
        contentsFrom fuel behind (es.reverse ++ nodes)
      else if c == '<' then
        resume stop
        if charAt s (stop.offset + 1) == '/' then return nodes.reverse
        else
          let e ← g .element
          dropComments
          contentsFrom fuel (← reached) (e :: nodes)
      else fail

/-- An element or a fragment; it ends with the last token read, and the text behind it is not read
    yet where it stands inside another element.  The name in the closing tag may be any. -/
def markup : Reading Node := do
  let start ← here
  expectPunct "<"
  let generic ← if ← atPunct ">" then pure false else tagName
  let typeArgs ← if generic && (← atPunct "<") then pure [← typeArguments g] else pure []
  let attributes ← collect do
    if (← atPunct ">") || (← atPunct "/") then return none
    else return some (← tagAttribute g)
  let t ← peek
  if ← acceptPunct "/" then
    unless t.touches (← peek) do fail
    expectPunct ">"
    finish .construct start (typeArgs ++ attributes)
  else
    let behind ← behindMark ">"
    let contents ← contentsFrom g (← roomLeft) behind []
    expectPunct "<"
    expectPunct "/"
    unless ← atPunct ">" do
      let _ ← tagName
    expectPunct ">"
    finish .construct start (typeArgs ++ attributes ++ contents)

end RouteAtlas.Code
