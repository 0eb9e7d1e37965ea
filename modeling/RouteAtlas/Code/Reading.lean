/-
  RouteAtlas: reading phrases from a module.

  A reading consumes tokens and gives a value, or fails with a fault.  The state holds the token
  to be read next, the end of the last one and the comments met so far.  Phrases contain each
  other, so each of them is written over a `Grammar`, which reads the phrases inside it.

  * `take`, `expect`, `accept?` consume a token; `attempt` takes a failed reading back, `either`
    reads in another way then;
  * `Sequel` is what follows the phrase that is read; `followed` and `enclosed` set it;
  * `finish` and `leaf` make nodes; `collect` and `separated` read lists;
  * `semicolon` ends a statement, with a semicolon or where a line, a block or the text ends.
-/
import RouteAtlas.Code.Dialect
import RouteAtlas.Code.Token

namespace RouteAtlas.Code

/-- Why a text is no module: the line of the fault. -/
structure Fault where
  line : Nat
  deriving DecidableEq, Repr

/-- What follows the phrase that is read, besides operators that go on with it. -/
inductive Sequel where
  /-- The end of a statement, which the end of a line can be. -/
  | stop
  /-- A bracket or a comma; lines do not count. -/
  | mark
  /-- A colon; lines do not count. -/
  | colon
  deriving DecidableEq, Repr

/-- Where a reading stands. -/
structure State where
  source : String
  dialect : Dialect
  /-- The token that is read next. -/
  token : Token
  /-- The end of the token read last. -/
  last : Position
  /-- The comments before the next token, the last one first. -/
  comments : List Span
  /-- The line on which the innermost statement in progress starts. -/
  statementLine : Nat
  /-- The line of the first token. -/
  firstLine : Nat
  /-- What follows the phrase that is read. -/
  sequel : Sequel
  /-- A type behind `as` or `satisfies` is being read, outside the brackets in it: what goes on with
      an operand may follow. -/
  inCast : Bool

/-- Reads a phrase: the value and the state after it, or a fault. -/
abbrev Reading := StateT State (Except Fault)

/-- The phrases that contain each other. -/
inductive Goal where
  /-- An expression without a comma. -/
  | expression
  /-- An operand of an operator, with the operators before and after it. -/
  | operand
  | statement
  | type
  /-- What a function results in: a type, or what it finds out about a name. -/
  | result
  /-- A name or a pattern of names. -/
  | binding
  /-- An element of the markup dialect. -/
  | element
  deriving DecidableEq, Repr

/-- Reads the phrases inside a phrase. -/
abbrev Grammar := Goal → Reading Node

/-! ## Tokens -/

/-- The state at a position, before the token there. -/
def State.seek (s : State) (p : Position) : State :=
  let g := gap s.source p
  { s with token := Token.after s.source g, comments := g.comments ++ s.comments }

/-- The state in front of the first token of a text. -/
def State.start (source : String) (dialect : Dialect) (p : Position) : State :=
  let g := gap source p
  let token := Token.after source g
  { source, dialect, token, last := p, comments := g.comments
    statementLine := token.start.line, firstLine := token.start.line
    sequel := .stop, inCast := false }

/-- The line that a fault at the next token is reported for: that of the token read last, but not in
    front of the innermost statement. -/
def State.faultLine (s : State) : Nat :=
  if s.token.kind == .broken then
    if s.token.text.isEmpty then s.firstLine else s.token.stop.line
  else max s.statementLine s.last.line

/-- No reading. -/
def fail {α : Type} : Reading α :=
  fun s => .error ⟨s.faultLine⟩

/-- The next token, not consumed. -/
def peek : Reading Token :=
  fun s => .ok (s.token, s)

/-- Consumes the next token. -/
def take : Reading Token :=
  fun s => .ok (s.token, { s.seek s.token.stop with last := s.token.stop })

/-- Goes on at a position after which the next token starts. -/
def resume (p : Position) : Reading Unit :=
  fun s => .ok ((), { s.seek p with last := p })

/-- The token behind the next one. -/
def second : Reading Token :=
  fun s => .ok (Token.after s.source (gap s.source s.token.stop), s)

/-- Where the next token starts. -/
def here : Reading Position :=
  fun s => .ok (s.token.start, s)

/-- Where the last token ended. -/
def reached : Reading Position :=
  fun s => .ok (s.last, s)

/-- The text of the module. -/
def sourceText : Reading String :=
  fun s => .ok (s.source, s)

/-- The form of the language that is read. -/
def dialect : Reading Dialect :=
  fun s => .ok (s.dialect, s)

/-- Whether the next token is the given punctuation. -/
def atPunct (text : String) : Reading Bool :=
  fun s => .ok (s.token.isPunct text, s)

/-- Whether the next token is the given word. -/
def atWord (text : String) : Reading Bool :=
  fun s => .ok (s.token.isWord text, s)

/-- Whether the text ends here. -/
def atEnd : Reading Bool :=
  fun s => .ok (s.token.kind == .eof, s)

/-- Consumes the given punctuation if it is next. -/
def acceptPunct (text : String) : Reading Bool := do
  if ← atPunct text then
    let _ ← take
    return true
  else return false

/-- Consumes the given word if it is next. -/
def acceptWord (text : String) : Reading Bool := do
  if ← atWord text then
    let _ ← take
    return true
  else return false

/-- Consumes the given punctuation. -/
def expectPunct (text : String) : Reading Unit := do
  unless ← acceptPunct text do fail

/-- Consumes the given word. -/
def expectWord (text : String) : Reading Unit := do
  unless ← acceptWord text do fail

/-- Consumes any word. -/
def expectAnyWord : Reading Token := do
  let t ← peek
  if t.kind == .word then take else fail

/-- The character behind the next token and the breaking white space after it. -/
def characterBehind : Reading Char :=
  fun s => .ok (charAt s.source (skipWhile s.source isBreakingSpace s.token.stop.offset), s)

/-- Drops the comments behind the last token: what looks like them is text. -/
def dropComments : Reading Unit :=
  fun s =>
    .ok ((), { s with comments := s.comments.dropWhile fun c => c.start.offset ≥ s.last.offset })

/-- Goes past the lines in front of a phrase that are comments of a page: those that start with
    `<!--` or `-->`. -/
def skipPageComments : Reading Unit :=
  fun s => .ok ((), go s (s.source.utf8ByteSize + 1 - s.token.start.offset))
where
  go (s : State) : Nat → State
    | 0 => s
    | fuel + 1 =>
      let start := s.token.start
      if standsAt s.source start.offset ['<', '!', '-', '-'] ||
          standsAt s.source start.offset ['-', '-', '>'] then
        let stop := start.moveTo s.source (skipWhile s.source (fun c => !isLineBreak c) start.offset)
        go ({ s with comments := ⟨start, stop⟩ :: s.comments }.seek stop) fuel
      else s

/-- Consumes a closing angle bracket, the first character of a longer token too. -/
def expectCloseAngle : Reading Unit := do
  let t ← peek
  if t.kind == .punct && charAt t.text 0 == '>' then
    resume ⟨t.start.offset + 1, t.start.line⟩
  else fail

/-- A reading that may fail; the state after a failed one is the state before it. -/
def attempt {α : Type} (p : Reading α) : Reading (Option α) :=
  fun s =>
    match p s with
    | .ok (a, s') => .ok (some a, s')
    | .error _ => .ok (none, s)

/-- The first of two readings that succeeds.  Where both fail, the fault is that of the one that
    came farther down, the first one's on the same line. -/
def either {α : Type} (p q : Reading α) : Reading α :=
  fun s =>
    match p s with
    | .ok r => .ok r
    | .error first =>
      match q s with
      | .ok r => .ok r
      | .error second => .error (if first.line < second.line then second else first)

/-- Whether a reading succeeds here; nothing is consumed. -/
def looksLike {α : Type} (p : Reading α) : Reading Bool :=
  fun s =>
    match p s with
    | .ok _ => .ok (true, s)
    | .error _ => .ok (false, s)

/-! ## What follows a phrase -/

/-- Reads a phrase before a given sequel. -/
@[inline] def followed {α : Type} (sequel : Sequel) (p : Reading α) : Reading α :=
  fun s =>
    match p { s with sequel, inCast := false } with
    | .ok (a, s') => .ok (a, { s' with sequel := s.sequel, inCast := s.inCast })
    | .error fault => .error fault

/-- Reads a phrase inside brackets. -/
@[inline] def enclosed {α : Type} (p : Reading α) : Reading α :=
  followed .mark p

/-- Reads the type behind `as` or `satisfies`. -/
@[inline] def casting {α : Type} (p : Reading α) : Reading α :=
  fun s =>
    match p { s with inCast := true } with
    | .ok (a, s') => .ok (a, { s' with inCast := s.inCast })
    | .error fault => .error fault

/-- What follows the phrase that is read. -/
def sequel : Reading Sequel :=
  fun s => .ok (s.sequel, s)

/-- Whether the type that is read stands behind `as` or `satisfies`. -/
def inCast : Reading Bool :=
  fun s => .ok (s.inCast, s)

/-! ## Nodes -/

/-- A node from a position to the end of the last token. -/
def finish (kind : Kind) (start : Position) (children : List Node) : Reading Node :=
  fun s =>
    .ok (.mk kind none ⟨start, s.last⟩ (slice s.source start.offset s.last.offset) children, s)

/-- A node without children, made of one token. -/
def Token.leaf (t : Token) (kind : Kind) : Node :=
  .mk kind none ⟨t.start, t.stop⟩ t.text []

/-- Consumes a token and makes it a node. -/
def leaf (kind : Kind) : Reading Node := do
  return (← take).leaf kind

/-! ## Lists -/

/-- How many items can still be read from here. -/
def roomLeft : Reading Nat :=
  fun s => .ok (s.source.utf8ByteSize + 2 - s.token.start.offset, s)

/-- Reads items until there is none; `items` are those read before, the last one first. -/
def collectFrom (item : Reading (Option Node)) : Nat → List Node → Reading (List Node)
  | 0, _ => fail
  | fuel + 1, items => do
    match ← item with
    | none => return items.reverse
    | some n => collectFrom item fuel (n :: items)

/-- Reads items until there is none. -/
def collect (item : Reading (Option Node)) : Reading (List Node) := do
  collectFrom item (← roomLeft) []

/-- Does a step until it says that it is done. -/
def repeatFrom (step : Reading Bool) : Nat → Reading Unit
  | 0 => fail
  | fuel + 1 => do
    if ← step then repeatFrom step fuel

/-- Does a step as long as it asks for another one. -/
def repeated (step : Reading Bool) : Reading Unit := do
  repeatFrom step (← roomLeft)

/-- Reads items with commas between them up to a closing mark, which is consumed.  An item may be
    left out if `holes` are allowed; a comma may stand before the mark. -/
def separated (close : String) (holes : Bool) (item : Reading Node) : Reading (List Node) := do
  let nodes ← collect do
    skipPageComments
    if ← atPunct close then return none
    else if holes && (← atPunct ",") then
      let _ ← take
      return some (.mk .token none default "," [])
    else
      let n ← enclosed item
      unless ← atPunct close do expectPunct ","
      return some n
  expectPunct close
  return nodes.filter fun n => !(n.kind == .token && n.text == ",")

/-- Reads items with commas between them up to a closing mark, which is consumed.  A comma may stand
    before the mark, alone too. -/
def listed (close : String) (item : Reading Node) : Reading (List Node) := do
  if (← atPunct ",") && (← second).isPunct close then
    let _ ← take
  separated close false item

/-! ## Ends of lines and statements -/

/-- The first characters of tokens that go on with a statement in spite of a new line. -/
def continuesLine : List Char :=
  ['\x60', ',', '.', ';', '*', '%', '>', '<', '=', '?', '^', '|', '&', '/', ':']

/-- Whether a text starts with the letters of a word and goes on with no letter. -/
def startsWithWord (text : String) (word : List Char) : Bool :=
  let c := charAt text word.length
  standsAt text 0 word && !(c.isAlpha || decide (128 ≤ c.toNat))

/-- Whether a line that ends before the token ends the statement.  Brackets go on with an
    expression, but not with a type. -/
def Token.endsLine (t : Token) (afterType : Bool) : Bool :=
  let c := charAt t.text 0
  if t.detached then true
  else if c == '(' || c == '[' then afterType
  else if c == '+' then t.text == "++"
  else if c == '-' then t.text == "--"
  else if c == '!' then !(t.text == "!=" || t.text == "!==")
  else if c == 'i' then
    !(startsWithWord t.text ['i', 'n'] ||
      startsWithWord t.text ['i', 'n', 's', 't', 'a', 'n', 'c', 'e', 'o', 'f'])
  else !continuesLine.contains c

/-- Whether the end of the line in front of the next token ends the expression that is read. -/
def lineEnds : Reading Bool :=
  fun s => .ok (s.sequel == .stop && s.token.newline && s.token.endsLine false, s)

/-- Whether the end of the line in front of the next token ends the type that is read. -/
def typeEnds : Reading Bool :=
  fun s => .ok (s.sequel == .stop && s.token.newline && s.token.endsLine (!s.inCast), s)

/-- Whether the end of the line behind the next token ends the expression that it is. -/
def lineEndsBehind (u : Token) : Reading Bool :=
  fun s => .ok (s.sequel == .stop && u.newline && u.endsLine false, s)

/-- Whether a statement may end in front of the token without a semicolon. -/
def Token.endsStatement (t : Token) (afterType : Bool) : Bool :=
  ((t.kind == .eof || t.isPunct "\x7d") && (t.newline || t.plain)) ||
    (t.newline && t.endsLine afterType)

/-- Ends a phrase with its line: the comments on the line belong to it. -/
def endLine : Reading Unit :=
  fun s => .ok ((), { s with last := s.token.lineEnd })

/-- Ends a phrase that may reach to the end of its line. -/
def optionalEnd : Reading Unit := do
  if (← peek).endsStatement false then endLine

/-- Ends a statement that ends with an expression. -/
def semicolon : Reading Unit := do
  unless ← acceptPunct ";" do
    if (← peek).endsStatement false then endLine else fail

/-- Whether a statement that no operator can go on with ends here.  A closing brace on the same line
    does not end it if a colon follows. -/
def atBareEnd : Reading Bool := do
  let t ← peek
  if t.isPunct ";" then return true
  else if t.isPunct "\x7d" && !t.newline then return (← characterBehind) != ':'
  else return t.endsStatement true

/-- Ends a statement that no operator can go on with. -/
def bareSemicolon : Reading Unit := do
  if ← atBareEnd then
    unless ← acceptPunct ";" do endLine
  else fail

/-! ## Looking ahead over brackets -/

/-- The words that an operand follows. -/
def operandWords : List String :=
  ["return", "typeof", "case", "in", "of", "instanceof", "new", "delete", "void", "throw", "await",
    "yield", "else", "do"]

/-- The offset after a regular expression whose slash is passed, if the line does not end before. -/
def regexEnd? (s : String) (inClass : Bool) (i : Nat) : Option Nat :=
  if i < s.utf8ByteSize then
    let c := charAt s i
    if c == '\n' then none
    else if c == '\\' then
      if charAt s (next s i) == '\n' then none else regexEnd? s inClass (next s (next s i))
    else if c == '[' then regexEnd? s true (next s i)
    else if c == ']' then regexEnd? s false (next s i)
    else if c == '/' && !inClass then some (i + 1)
    else regexEnd? s inClass (next s i)
  else none
termination_by s.utf8ByteSize - i
decreasing_by
  · have := lt_next s i; have := lt_next s (next s i); omega
  all_goals have := lt_next s i; omega

/-- The closing bracket of an opening one. -/
def closing (c : Char) : Char :=
  if c == '(' then ')' else if c == '[' then ']' else '}'

/-- Where the innermost of the open brackets `open_` closes.  A grave accent on the list stands for
    a template.  `value` says whether an operand has just ended, so that a slash divides. -/
def matchFrom (s : String) : Nat → List Char → Bool → Nat → Option Nat
  | _, [], _, i => some i
  | 0, _, _, _ => none
  | fuel + 1, top :: rest, value, i =>
    if i ≥ s.utf8ByteSize then none
    else
      let c := charAt s i
      if top == '\x60' then
        if c == '\x60' then matchFrom s fuel rest true (i + 1)
        else if c == '\\' then matchFrom s fuel (top :: rest) value (next s (i + 1))
        else if c == '$' && charAt s (i + 1) == '{' then
          matchFrom s fuel ('}' :: top :: rest) false (i + 2)
        else matchFrom s fuel (top :: rest) value (next s i)
      else if c == '"' || c == '\'' then
        match stringEnd s i with
        | (.string, j) => matchFrom s fuel (top :: rest) true j
        | _ => matchFrom s fuel (top :: rest) true (i + 1)
      else if c == '\x60' then matchFrom s fuel (c :: top :: rest) false (i + 1)
      else if c == '/' then
        match commentEnd? s i with
        | some j => matchFrom s fuel (top :: rest) value j
        | none =>
          if value then matchFrom s fuel (top :: rest) false (i + 1)
          else matchFrom s fuel (top :: rest) true ((regexEnd? s false (i + 1)).getD (i + 1))
      else if c == '(' || c == '[' || c == '{' then
        matchFrom s fuel (closing c :: top :: rest) false (i + 1)
      else if c == ')' || c == ']' || c == '}' then
        if c == top then matchFrom s fuel rest true (i + 1) else none
      else if isWordPart c then
        let j := skipWhile s isWordPart i
        matchFrom s fuel (top :: rest) (!operandWords.contains (slice s i j)) j
      else if isSpace c then matchFrom s fuel (top :: rest) value (next s i)
      else matchFrom s fuel (top :: rest) false (next s i)

/-- The token behind the bracket that closes the opening one which is next. -/
def behindBrackets : Reading (Option Token) :=
  fun s =>
    let t := s.token
    let i := t.start.offset
    let closed := matchFrom s.source (s.source.utf8ByteSize + 1 - i) [closing (charAt t.text 0)] false
      (i + 1)
    let token := closed.map fun j => Token.after s.source (gap s.source (t.start.moveTo s.source j))
    .ok (token, s)

/-- Whether the bracket that is next closes in front of the given punctuation. -/
def closesBefore (text : String) : Reading Bool := do
  return ((← behindBrackets).map fun t => t.isPunct text).getD false

end RouteAtlas.Code
