/-
  RouteAtlas: functions, methods and classes.

  * `block` reads statements in braces;
  * `functionRest` reads what follows the keyword of a function, `arrowRest` what follows the
    parameters of an arrow function;
  * `objectMember` and `classMember` read the members of objects and classes, `classRest` what
    follows the keyword of a class.
-/
import RouteAtlas.Code.Phrase.Type

namespace RouteAtlas.Code

variable (g : Grammar)

/-! ## Bodies -/

/-- Statements in braces.  The comments on the line of the closing brace belong to the block if the
    line ends behind them. -/
def block : Reading Node := do
  let start ← here
  expectPunct "\x7b"
  let statements ← collect do
    skipPageComments
    if (← atPunct "\x7d") || (← atEnd) then return none
    else return some (← g .statement)
  expectPunct "\x7d"
  optionalEnd
  finish .block start statements

/-- The body of a function, in its role. -/
def functionBody : Reading Node := do
  return (← block g).withRole .body

/-- The words that begin a statement and name nothing, besides those of operands. -/
def statementKeywords : List String :=
  ["if", "switch", "for", "while", "do", "try", "with", "break", "continue", "return", "throw",
    "debugger", "const", "var", "enum", "interface", "abstract", "undefined"]

/-- Whether a word names nothing at the start of a statement. -/
def Token.isStatementKeyword (t : Token) : Bool :=
  t.kind == .word && (operandKeywords.contains t.text || statementKeywords.contains t.text)

/-- Consumes the name of a member without reading what its brackets hold, and gives the token behind
    it. -/
def behindKey : Reading Token := do
  if ← atPunct "[" then
    match ← behindBrackets with
    | some t => return t
    | none => fail
  else
    let t ← take
    if t.beginsKey then peek else fail

/-- Whether the first tokens in the braces that are next are those of an object rather than of
    statements.  A label is a key here. -/
def opensObject : Reading Bool :=
  looksLike do
    expectPunct "\x7b"
    let t ← peek
    let u ← second
    if t.isStatementKeyword || (t.isWord "async" && u.isWord "function") then fail
    if t.kind == .word && methodModifiers.contains t.text && (u.beginsKey || u.isPunct "*") then
      let _ ← take
      let _ ← acceptPunct "*"
      unless (← behindKey).isPunct "(" do fail
    else unless t.isPunct "," || t.isPunct "..." || t.isPunct "*" do
      let v ← behindKey
      unless v.isPunct ":" do
        if v.isPunct "(" && !t.isPunct "[" then
          match ← behindBrackets with
          | some w => unless (w.isPunct "\x7b" && !w.newline) || w.isPunct ":" do fail
          | none => fail
        else fail

/-- The body of an arrow function: an expression, or a block where the braces hold no object. -/
def arrowBody : Reading Node := do
  if ← atPunct "\x7b" then
    if ← opensObject then either (g .expression) (block g) else block g
  else g .expression

/-- The rest of an arrow function, from its arrow on; `head` is what was read before. -/
def arrowRest (start : Position) (head : List Node) : Reading Node := do
  expectPunct "=>"
  let body ← arrowBody g
  finish .arrowFunction start (head ++ [body.withRole .body])

/-- The rest of a function behind its keyword, with the body if it has one.  `head` is what was read
    before; the flag says whether the function generates, and the result type stands before a given
    sequel. -/
def functionRest (sequel : Sequel) (head : List Node) : Reading (Bool × List Node × Bool) := do
  let generates ← acceptPunct "*"
  let t ← peek
  let name ←
    if t.kind == .word then
      let n ← leaf .identifier
      pure [n.withRole .name]
    else pure []
  let sig ← signature g sequel
  if ← atPunct "\x7b" then
    return (generates, head ++ name ++ sig ++ [← functionBody g], true)
  else return (generates, head ++ name ++ sig, false)

/-- A function expression, from its keyword on. -/
def functionExpression (start : Position) (head : List Node) : Reading Node := do
  expectWord "function"
  let (generates, children, complete) ← functionRest g .mark head
  unless complete do fail
  finish (if generates then .generatorExpression else .functionExpression) start children

/-! ## Members of objects -/

/-- The rest of a method behind its name; its result type stands before a given sequel. -/
def methodRest (sequel : Sequel) (start : Position) (head : List Node) : Reading Node := do
  let sig ← signature g sequel
  if ← atPunct "\x7b" then
    finish .methodDefinition start (head ++ sig ++ [← functionBody g])
  else finish .construct start (head ++ sig)

/-- A member of an object: a pair, a name alone, a method or a spread expression. -/
def objectMember : Reading Node := do
  let start ← here
  if ← acceptPunct "..." then
    let e ← g .expression
    finish .spread start [e]
  else
    let (modifiers, words) ← memberFront methodModifiers false
    let t ← peek
    let key ← propertyKey g
    let u ← second
    if (← atPunct "?") && (u.isPunct "(" || u.isPunct "<") then
      let _ ← take
    if (← atPunct "(") || (← atPunct "<") then
      let method ← methodRest g .mark start (modifiers ++ [key.withRole .name])
      unless method.kind == .methodDefinition && followsOrder methodOrder words do fail
      return method
    else if start.offset < t.start.offset then fail
    else if ← acceptPunct ":" then
      let value ← g .expression
      finish .pair start [key.withRole .key, value.withRole .value]
    else if t.kind == .word then return t.leaf .shorthand
    else fail

/-- An object. -/
def objectLiteral : Reading Node := do
  let start ← here
  expectPunct "\x7b"
  let members ← separated "\x7d" true (objectMember g)
  finish .object start members

/-! ## Members of classes -/

/-- The words that may stand before a member of a class. -/
def classModifiers : List String :=
  methodModifiers ++ ["abstract", "declare", "accessor"]

/-- The words in front of a method that a class leaves to others, in order. -/
def abstractOrder : List (List String) :=
  [accessWords, ["abstract"], ["override"], ["get", "set", "*"]]

/-- The orders of the words in front of a field. -/
def fieldOrders : List (List (List String)) :=
  let heads := [[accessWords, ["declare"]], [["declare"], accessWords]]
  let tails := [[["static"], ["override"], ["readonly"]], [["abstract"], ["readonly"]],
    [["readonly"], ["abstract"]], [["accessor"]]]
  heads.flatMap fun head => tails.map fun tail => head ++ tail

/-- Whether a word behind others in front of a member is no name: it stands where it would mark the
    member. -/
def Token.namesNoMember (t : Token) (words : List String) : Bool :=
  (t.isWord "abstract" && words.all fun w => (accessWords ++ ["declare", "readonly"]).contains w) ||
    (t.isWord "accessor" && words.all fun w => (accessWords ++ ["declare"]).contains w)

/-- The rest of a field behind its name. -/
def fieldRest (start : Position) (head : List Node) : Reading Node := do
  let type ← followed .stop (writtenType? g .type)
  let init ← followed .stop (initializer? g .value)
  let field ← finish .construct start (head ++ type ++ init)
  memberEnd init.isEmpty
  return field

/-- An index signature of a class. -/
def indexSignature (start : Position) : Reading Node := do
  let key ← bracketedKey g
  let type ← followed .stop (writtenType g .type)
  let index ← finish .construct start [key, type]
  memberEnd true
  return index

/-- A member of a class: a block, an index, a method or a field. -/
def classMember : Reading Node := do
  let start ← here
  let decorations ← decorators g
  let behind ← second
  if (← atWord "static") && behind.isPunct "\x7b" && !behind.newline then
    let _ ← take
    let body ← block g
    finish .construct start (decorations ++ [body])
  else
    let (modifiers, words) ← memberFront classModifiers true
    let isIndex ← looksLike do
      expectPunct "["
      let _ ← expectAnyWord
      expectPunct ":"
    if isIndex then
      if followsOrder [["readonly"]] words then indexSignature g start else fail
    else
      if (← peek).namesNoMember words then fail
      let key ← propertyKey g
      let head := decorations ++ modifiers ++ [key.withRole .name]
      let marked ← acceptPunct "!"
      unless marked do
        let _ ← acceptPunct "?"
      let t ← peek
      if !marked && ((t.isPunct "(" && !t.newline) || t.isPunct "<") then
        let method ← methodRest g .stop start head
        if method.kind == .methodDefinition then
          if followsOrder methodOrder words then return method else fail
        else
          memberEnd true
          if followsOrder methodOrder words || followsOrder abstractOrder words then return method
          else fail
      else if fieldOrders.any fun order => followsOrder order words then fieldRest g start head
      else fail

/-- The body of a class. -/
def classBody : Reading Node := do
  let start ← here
  expectPunct "\x7b"
  let members ← collect do
    repeated (acceptPunct ";")
    skipPageComments
    if (← atPunct "\x7d") || (← atEnd) then return none
    else return some (← classMember g)
  expectPunct "\x7d"
  finish .classBody start members

/-- The rest of a class behind its keyword. -/
def classRest (kind : Kind) (start : Position) (head : List Node) : Reading Node := do
  let t ← peek
  let name ←
    if t.kind == .word && t.text != "extends" && t.text != "implements" then
      let n ← leaf .identifier
      pure [n.withRole .name]
    else pure []
  let typeParams ← typeParameters? g
  let parents ←
    if ← acceptWord "extends" then separatedByComma (enclosed (g .expression)) else pure []
  let promises ←
    if ← acceptWord "implements" then separatedByComma (enclosed (g .type)) else pure []
  let body ← classBody g
  finish kind start (head ++ name ++ typeParams ++ parents ++ promises ++ [body.withRole .body])

end RouteAtlas.Code
