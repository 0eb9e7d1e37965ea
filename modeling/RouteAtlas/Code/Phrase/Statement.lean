/-
  RouteAtlas: statements.

  * `statement` reads a statement; faults inside it are not reported for lines in front of it;
  * `variableStatement`, `functionStatement`, `classStatement` read declarations;
  * `declaration` reads what must be a declaration, `exporting` an export;
  * `Token.startsDeclaration` says where a word starts a declaration rather than an expression.
-/
import RouteAtlas.Code.Phrase.Expression

namespace RouteAtlas.Code

variable (g : Grammar)

/-- Reads a statement.  Faults in it are reported for its line or for one behind it. -/
def asStatement (p : Reading Node) : Reading Node := do
  let outer ← fun s => .ok (s.statementLine, { s with statementLine := s.token.start.line })
  let n ← followed .stop p
  fun s => .ok (n, { s with statementLine := outer })

/-- An expression as a statement. -/
def expressionStatement : Reading Node := do
  let start ← here
  let e ← sequence g
  semicolon
  finish .construct start [e]

/-! ## Declarations -/

/-- A declared variable: a binding, a type and an initial value.  A name can be marked as set
    elsewhere; it has a type then and no initial value. -/
def declarator : Reading Node := do
  let start ← here
  let name ← g .binding
  if name.kind == .identifier && (← atPunct "!") then
    let _ ← take
    let type ← writtenType g .type
    finish .declarator start [name.withRole .name, type.withRole .type]
  else
    let type ← writtenType? g .type
    let init ← initializer? g .value
    finish .declarator start (name.withRole .name :: (type ++ init))

/-- A declaration of variables. -/
def variableStatement : Reading Node := do
  let start ← here
  let _ ← take
  let ds ← separatedByComma (declarator g)
  let valued := (ds.getLast?.bind fun d => d.field? .value).isSome
  if valued then semicolon else bareSemicolon
  finish .variableDeclaration start ds

/-- The kind of a named function. -/
def functionKind (generates complete : Bool) : Kind :=
  if !complete then .functionSignature
  else if generates then .generatorDeclaration
  else .functionDeclaration

/-- A declaration of a function, which has a name. -/
def functionStatement : Reading Node := do
  let start ← here
  let async ← if ← atWord "async" then pure [← leaf .token] else pure []
  expectWord "function"
  let (generates, children, complete) ← functionRest g .stop async
  unless children.any fun c => c.role == some .name do fail
  unless complete do
    if generates then fail else bareSemicolon
  finish (functionKind generates complete) start children

/-- A declaration of a class, which has a name, from its keyword on.  The comments on its last line
    belong to it if the line ends behind them and it is not abstract. -/
def classStatement (start : Position) (decorations : List Node) : Reading Node := do
  let abstract_ ← acceptWord "abstract"
  expectWord "class"
  let c ← classRest g .classDeclaration start decorations
  if (c.field? .name).isNone then fail
  if abstract_ then return c
  else
    optionalEnd
    finish .classDeclaration start c.children

/-- A member of an enumeration. -/
def enumMember : Reading Node := do
  let start ← here
  let key ← propertyKey g
  let init ← initializer? g .value
  finish .construct start (key :: init)

/-- An enumeration. -/
def enumeration : Reading Node := do
  let start ← here
  let _ ← acceptWord "const"
  expectWord "enum"
  let _ ← expectAnyWord
  expectPunct "\x7b"
  let members ← separated "\x7d" false (enumMember g)
  finish .construct start members

/-- An interface that another one extends. -/
def extendedInterface : Reading Node := do
  let start ← here
  let _ ← expectAnyWord
  skipPath
  finish .construct start (← typeArguments? g)

/-- An interface. -/
def interfaceStatement : Reading Node := do
  let start ← here
  expectWord "interface"
  let _ ← expectAnyWord
  let typeParams ← typeParameters? g
  let parents ← if ← acceptWord "extends" then separatedByComma (extendedInterface g) else pure []
  let body ← objectType g
  finish .construct start (typeParams ++ parents ++ [body])

/-- A name for a type. -/
def typeAlias : Reading Node := do
  let start ← here
  expectWord "type"
  let _ ← expectAnyWord
  let typeParams ← typeParameters? g
  expectPunct "="
  let type ← g .type
  bareSemicolon
  finish .construct start (typeParams ++ [type])

/-- A namespace or a module inside a file. -/
def namespaceStatement : Reading Node := do
  let start ← here
  let _ ← take
  namespaceRest g start

/-! ## Where declarations start -/

/-- Whether a token begins a declared name or a pattern. -/
def Token.beginsBinding (t : Token) : Bool :=
  t.kind == .word || t.isPunct "[" || t.isPunct "\x7b"

/-- Whether a declaration starts with a word and the token behind it.  Where only a declaration can
    stand, lines do not count. -/
def Token.startsDeclaration (t u : Token) (required : Bool) : Bool :=
  let named := u.kind == .word && (required || (!u.newline && !operatorWords.contains u.text))
  match t.text with
  | "const" | "var" | "function" | "class" => true
  | "let" =>
    u.beginsBinding &&
      (required || (!operatorWords.contains u.text && !(u.newline && u.endsLine false)))
  | "async" => u.isWord "function" && (required || !u.newline)
  | "abstract" => u.isWord "class"
  | "enum" | "interface" => u.kind == .word
  | "type" | "declare" => named
  | "namespace" | "module" => named || (u.kind == .string && (required || !u.newline))
  | _ => false

/-- The tokens that go on with an operand and begin no statement. -/
def operandContinuations : List String :=
  [".", "?.", ",", "?", "=", "=>", "==", "===", "!=", "!==", ">", "<=", ">=", "&&", "||", "??", "&",
    "|", "^", "*", "%", "**", "<<", ">>", ">>>"]

/-- Whether a token goes on with an operand in front of it and begins no statement. -/
def Token.continuesOperand (t : Token) : Bool :=
  match t.kind with
  | .punct => operandContinuations.contains t.text || combinedAssignments.contains t.text
  | .word => t.text == "in" || t.text == "instanceof" || (operatorWords.contains t.text && !t.newline)
  | _ => false

/-- Whether the function, the class or the namespace that is next has a name. -/
def namesDeclared : Reading Bool :=
  looksLike do
    let _ ← acceptWord "async"
    let _ ← take
    let _ ← acceptPunct "*"
    let t ← peek
    unless t.kind == .string || (t.kind == .word && t.text != "extends" && t.text != "implements") do
      fail

/-- Reads a declaration, or an expression where it has no name or something goes on with it. -/
def declarationOrOperand (p : Reading Node) : Reading Node := do
  if ← namesDeclared then
    fun s =>
      match p s with
      | .ok (d, s') => if s'.token.continuesOperand then expressionStatement g s else .ok (d, s')
      | .error fault => .error fault
  else expressionStatement g

/-- A declaration that starts with a word, as long as nothing stands in front of it. -/
def plainDeclaration (t u : Token) : Reading Node :=
  match t.text with
  | "const" => if u.isWord "enum" then enumeration g else variableStatement g
  | "var" | "let" => variableStatement g
  | "function" | "async" => functionStatement g
  | "class" | "abstract" => classStatement g t.start []
  | "enum" => enumeration g
  | "interface" => interfaceStatement g
  | "type" => typeAlias g
  | _ => namespaceStatement g

/-- The module that `require` asks for, behind the word. -/
def requiredModule : Reading Unit := do
  expectPunct "("
  unless (← peek).kind == .string do fail
  let _ ← take
  expectPunct ")"

/-- A name for a part of a namespace, or for a module that is required where that is allowed; only a
    module can be asked for where no part is. -/
def importedPart (parts modules : Bool) : Reading Unit := do
  let _ ← expectAnyWord
  expectPunct "="
  let u ← expectAnyWord
  if modules && u.text == "require" then requiredModule
  else if parts then skipPath
  else fail

/-- A name for a part of a namespace. -/
def importAlias : Reading Node := do
  let start ← here
  expectWord "import"
  importedPart true false
  bareSemicolon
  finish .construct start []

/-- What must be a declaration, besides one of what exists elsewhere. -/
def presentDeclaration : Reading Node := asStatement do
  let t ← peek
  let u ← second
  if t.isWord "import" then importAlias
  else if t.kind == .word && t.text != "declare" && t.startsDeclaration u true then
    plainDeclaration g t u
  else fail

/-- A declaration of what exists elsewhere. -/
def ambient : Reading Node := do
  let start ← here
  repeated (acceptWord "declare")
  if (← atWord "global") && (← second).isPunct "\x7b" then
    let _ ← take
    let body ← block g
    finish .construct start [body]
  else if (← atWord "module") && (← second).isPunct "." then
    let _ ← take
    let _ ← take
    let _ ← expectAnyWord
    let type ← writtenType g .type
    bareSemicolon
    finish .construct start [type]
  else
    let d ← presentDeclaration g
    finish .construct start [d]

/-- What must be a declaration. -/
def declaration : Reading Node := do
  if ← atWord "declare" then asStatement (ambient g) else presentDeclaration g

/-! ## Imports and exports -/

/-- The string that names another module. -/
def moduleName : Reading Node := do
  unless (← peek).kind == .string do fail
  return (← leaf .string).withRole .source

/-- The attributes behind the source of an import, on the same line. -/
def importAttributes : Reading (List Node) := do
  if (← atWord "with") && !(← lineEnds) then
    let _ ← take
    return [← objectLiteral g]
  else return []

/-- A word or a string that names an export. -/
def exportName : Reading Node := do
  let t ← peek
  match t.kind with
  | .word => leaf .identifier
  | .string => leaf .string
  | _ => fail

/-- One name of an export, with the name that it gets; the words that mark a type name nothing
    here. -/
def exportSpecifier : Reading Node := do
  let start ← here
  unless ← acceptWord "type" do
    let _ ← acceptWord "typeof"
  let name ← exportName
  if ← acceptWord "as" then
    let newName ← exportName
    finish .exportSpecifier start [name.withRole .name, newName.withRole .newName]
  else finish .exportSpecifier start [name.withRole .name]

/-- One name of an import, with the name that it gets, which is a word.  Of the words that mark a
    type `type` can be a name. -/
def importSpecifier : Reading Node := do
  let start ← here
  let u ← second
  unless ← acceptWord "typeof" do
    if (← atWord "type") && (u.kind == .word || u.kind == .string) && u.text != "as" then
      let _ ← take
  let name ← exportName
  if ← acceptWord "as" then
    let _ ← expectAnyWord
    finish .construct start [name]
  else if name.kind == .identifier then finish .construct start [name]
  else fail

/-- Names in braces. -/
def clause (specifier : Reading Node) : Reading Node := do
  let start ← here
  expectPunct "\x7b"
  let specifiers ← listed "\x7d" specifier
  finish .exportClause start specifiers

/-- The names that an import binds, up to the module they come from. -/
def importBindings : Reading Unit := do
  if (← peek).kind == .word then
    let _ ← take
    unless ← acceptPunct "," do return
  if ← acceptPunct "*" then
    expectWord "as"
    let _ ← expectAnyWord
  else
    let _ ← clause importSpecifier

/-- Whether `type` and the token behind it say that an import is of types alone. -/
def Token.marksTypes (t u : Token) : Bool :=
  t.isWord "typeof" ||
    (t.isWord "type" &&
      (u.isPunct "\x7b" || u.isPunct "*" || u.kind == .string || (u.kind == .word && u.text != "from")))

/-- An import, or a name for a part of a namespace. -/
def importStatement : Reading Node := do
  let start ← here
  expectWord "import"
  let ofTypes := (← peek).marksTypes (← second)
  if ofTypes then
    let _ ← take
  if (← peek).kind == .string then
    let _ ← take
  else if (← second).isPunct "=" then importedPart (!ofTypes) true
  else
    importBindings
    expectWord "from"
    let _ ← moduleName
  let attributes ← importAttributes g
  bareSemicolon
  finish .construct start attributes

/-- What follows `export default`: a declaration, or a value. -/
def defaultExport : Reading (List Node) := do
  let t ← peek
  let u ← second
  let nameless := ["function", "class", "async"].contains t.text && !(← namesDeclared)
  if t.kind == .word && t.startsDeclaration u false && !nameless then
    return [(← declaration g).withRole .declaration]
  else
    let e ← g .expression
    semicolon
    return [e]

/-- The module that exported names come from, if one is given on the same line. -/
def exportSource : Reading (List Node) := do
  if (← atWord "from") && !(← lineEnds) then
    let _ ← take
    return [← moduleName]
  else return []

/-- Whether an export goes on with a token, so that `export` names nothing. -/
def Token.goesOnWithExport (u : Token) : Bool :=
  !(u.newline && u.endsLine false) &&
    ((u.kind == .word && (u.text == "as" || !operatorWords.contains u.text)) ||
      (u.kind == .punct && ["*", "\x7b", "=", "@"].contains u.text))

/-- An export; `decorations` were read in front of it. -/
def exporting (start : Position) (decorations : List Node) : Reading Node := do
  expectWord "export"
  let t ← peek
  let u ← second
  if t.isWord "type" && u.isPunct "\x7b" then
    let _ ← take
  if t.isWord "default" then
    let mark ← leaf .token
    let rest ← defaultExport g
    finish .exportStatement start (decorations ++ mark :: rest)
  else if ← atPunct "\x7b" then
    let names ← clause exportSpecifier
    let source ← exportSource
    bareSemicolon
    finish .exportStatement start (decorations ++ names :: source)
  else if ← acceptPunct "*" then
    if ← acceptWord "as" then
      let _ ← exportName
    expectWord "from"
    let source ← moduleName
    bareSemicolon
    finish .exportStatement start (decorations ++ [source])
  else if ← acceptPunct "=" then
    let e ← g .expression
    semicolon
    finish .exportStatement start (decorations ++ [e])
  else if t.isWord "as" then
    let _ ← take
    expectWord "namespace"
    let _ ← expectAnyWord
    bareSemicolon
    finish .exportStatement start decorations
  else
    let more ← decorators g
    let first ← peek
    let d ← if more.isEmpty then declaration g else asStatement (classStatement g first.start [])
    finish .exportStatement start (decorations ++ more ++ [d.withRole .declaration])

/-! ## Control -/

/-- A conditional statement. -/
def conditional : Reading Node := do
  let start ← here
  let _ ← take
  let e ← parenthesized g
  let yes ← g .statement
  if ← acceptWord "else" then
    let no ← g .statement
    finish .construct start [e, yes, no]
  else finish .construct start [e, yes]

/-- Whether a token stands behind the target of a loop over members. -/
def Token.endsLoopTarget (t : Token) : Bool :=
  t.isWord "of" || t.isWord "in"

/-- What a loop over members assigns to. -/
def loopTarget : Reading Node := do
  if ← atPunct "(" then
    let n ← g .operand
    if n.kind.isPlace || n.kind == .parenthesized then return n else fail
  else target g Token.endsLoopTarget

/-- Whether an expression asks for a member with `in`: behind `var` and an equals sign it is the
    initial value of a loop with its subject. -/
def Node.asksForMember (n : Node) : Bool :=
  n.kind == .binary && n.fieldText .operator == "in"

/-- The head of a loop over the members of something: a target, `of` or `in`, and a subject. -/
def memberHead : Reading (List Node) := do
  let t ← peek
  let declared := t.isWord "const" || t.isWord "var" ||
    (t.isWord "let" && !(← second).endsLoopTarget)
  let target ←
    if declared then
      let _ ← take
      let name ← g .binding
      let init ← if t.isWord "var" then initializer? g .value else pure []
      if init.any Node.asksForMember && (← acceptPunct ")") then return name :: init
      let u ← peek
      if t.isWord "var" && u.isWord "of" && u.newline then fail
      pure (name :: init)
    else pure [← loopTarget g]
  unless (← peek).endsLoopTarget do fail
  let _ ← take
  let e ← sequence g
  expectPunct ")"
  return target ++ [e]

/-- The head of a loop with a counter: three parts with semicolons between them.  A declaration ends
    like a statement. -/
def counterHead : Reading (List Node) := do
  let t ← peek
  let u ← second
  let init ←
    if ← acceptPunct ";" then pure []
    else if t.kind == .word && ["const", "var", "let"].contains t.text && u.beginsBinding then
      pure [← followed .stop (variableStatement g)]
    else
      let e ← sequence g
      expectPunct ";"
      pure [e]
  let test ← if ← atPunct ";" then pure [] else pure [← sequence g]
  expectPunct ";"
  let step ← if ← atPunct ")" then pure [] else pure [← sequence g]
  expectPunct ")"
  return init ++ test ++ step

/-- A loop with a head in parentheses. -/
def forLoop : Reading Node := do
  let start ← here
  let _ ← take
  let awaits ← acceptWord "await"
  expectPunct "("
  let head ← enclosed (either (memberHead g) (if awaits then fail else counterHead g))
  let body ← g .statement
  finish .construct start (head ++ [body])

/-- A loop with its condition first. -/
def whileLoop : Reading Node := do
  let start ← here
  let _ ← take
  let e ← parenthesized g
  let body ← g .statement
  finish .construct start [e, body]

/-- A loop with its condition last. -/
def doLoop : Reading Node := do
  let start ← here
  let _ ← take
  let body ← g .statement
  expectWord "while"
  let e ← parenthesized g
  unless ← acceptPunct ";" do optionalEnd
  finish .construct start [body, e]

/-- The handler of a fault. -/
def handler : Reading Node := do
  let start ← here
  expectWord "catch"
  let caught ←
    if ← acceptPunct "(" then
      let name ← g .binding
      let type ← enclosed (writtenType? g .type)
      expectPunct ")"
      pure (name :: type)
    else pure []
  let handling ← block g
  finish .construct start (caught ++ [handling])

/-- A block with the handlers for its faults, if it has any. -/
def guarded : Reading Node := do
  let start ← here
  let _ ← take
  let body ← block g
  let handlers ← if ← atWord "catch" then pure [← handler g] else pure []
  let finally_ ← if ← acceptWord "finally" then pure [← block g] else pure []
  finish .construct start (body :: (handlers ++ finally_))

/-- A case of a choice. -/
def caseOf : Reading Node := do
  let start ← here
  let value ←
    if ← acceptWord "default" then pure []
    else
      expectWord "case"
      pure [← followed .colon (sequence g)]
  expectPunct ":"
  let statements ← collect do
    skipPageComments
    if (← atPunct "\x7d") || (← atEnd) || (← atWord "case") || (← atWord "default") then return none
    else return some (← g .statement)
  finish .construct start (value ++ statements)

/-- A choice between cases. -/
def choice : Reading Node := do
  let start ← here
  let _ ← take
  let e ← parenthesized g
  expectPunct "\x7b"
  let cases ← collect do
    skipPageComments
    if (← atPunct "\x7d") || (← atEnd) then return none
    else return some (← caseOf g)
  expectPunct "\x7d"
  finish .construct start (e :: cases)

/-- A return, with its value if there is one. -/
def returning : Reading Node := do
  let start ← here
  let _ ← take
  if ← atBareEnd then
    bareSemicolon
    finish .returnStatement start []
  else
    let e ← sequence g
    semicolon
    finish .returnStatement start [e]

/-- A throw. -/
def throwing : Reading Node := do
  let start ← here
  let _ ← take
  let e ← sequence g
  semicolon
  finish .construct start [e]

/-- A jump to the end or the start of a loop, with a label if there is one. -/
def jump : Reading Node := do
  let start ← here
  let _ ← take
  unless ← atBareEnd do
    let _ ← expectAnyWord
  bareSemicolon
  finish .construct start []

/-- A word that is a statement of its own. -/
def bareWord : Reading Node := do
  let start ← here
  let _ ← take
  bareSemicolon
  finish .construct start []

/-! ## Statements -/

/-- A statement that starts with a word; the token behind the word is given too. -/
def wordStatement (t u : Token) : Reading Node :=
  if t.startsDeclaration u false then
    match t.text with
    | "declare" => ambient g
    | "function" | "async" | "class" | "namespace" =>
      declarationOrOperand g (plainDeclaration g t u)
    | _ => plainDeclaration g t u
  else
    match t.text with
    | "export" => if u.goesOnWithExport then exporting g t.start [] else expressionStatement g
    | "import" =>
      if u.isPunct "(" || u.isPunct "." then expressionStatement g else importStatement g
    | "if" => conditional g
    | "for" => forLoop g
    | "while" | "with" => whileLoop g
    | "do" => doLoop g
    | "try" => guarded g
    | "switch" => choice g
    | "return" => returning g
    | "throw" => throwing g
    | "break" | "continue" => jump
    | "debugger" => bareWord
    | "abstract" | "enum" | "interface" => fail
    | _ => expressionStatement g

/-- A statement with a label. -/
def labelled : Reading Node := do
  let start ← here
  let _ ← take
  expectPunct ":"
  let s ← g .statement
  finish .construct start [s]

/-- A statement that starts with decorators: a class, the export of one, or an expression that starts
    with a class without a name. -/
def decorated : Reading Node := do
  let start ← here
  let here_ ← get
  let decorations ← decorators g
  if ← atWord "export" then exporting g start decorations
  else if ← namesDeclared then classStatement g start decorations
  else
    set here_
    expressionStatement g

/-- A statement in braces: a block, or an expression that starts with an object. -/
def bracedStatement : Reading Node := do
  if ← opensObject then either (expressionStatement g) (block g) else block g

/-- A statement, on whatever line. -/
def plainStatement : Reading Node := do
  let t ← peek
  let u ← second
  if t.kind == .word then
    if u.isPunct ":" && !t.isStatementKeyword then labelled g else wordStatement g t u
  else if t.isPunct "\x7b" then bracedStatement g
  else if t.isPunct ";" then
    let _ ← take
    finish .construct t.start []
  else if t.isPunct "@" then decorated g
  else expressionStatement g

/-- A statement. -/
def statement : Reading Node := do
  skipPageComments
  asStatement (plainStatement g)

end RouteAtlas.Code
