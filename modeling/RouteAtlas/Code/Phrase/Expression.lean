/-
  RouteAtlas: expressions.

  An expression is a chain of operands with binary operators between them, or a condition on such
  a chain.  `as`, `satisfies` and the non-null mark take the whole chain on their left; binary
  operators may go on behind them.  Of the operators in front of an operand only `await` takes the
  non-null marks behind it.

  * `levelOf?` is the level of a binary operator, and `expression` reads by levels;
  * `operand` reads an operand with the operators in front of it and the calls, members and
    assignments behind it;
  * `primary` reads what stands for itself.
-/
import RouteAtlas.Code.Phrase.Function

namespace RouteAtlas.Code

variable (g : Grammar)

/-- A template with expressions. -/
def templateLiteral : Reading Node :=
  template true (sequence g)

/-! ## What stands for itself -/

/-- A regular expression. -/
def regex : Reading Node := do
  let t ← peek
  let s ← sourceText
  match regexEnd? s false (t.start.offset + 1) with
  | none => fail
  | some stop =>
    let flagsEnd := skipWhile s Char.isLower stop
    resume ⟨flagsEnd, t.start.line⟩
    finish .regex t.start []

/-- An array. -/
def arrayLiteral : Reading Node := do
  let start ← here
  expectPunct "["
  let es ← separated "]" true (element g)
  finish .array start es

/-- Expressions in parentheses; a single one may have a type. -/
def parenthesized : Reading Node := do
  let start ← here
  expectPunct "("
  let e ← enclosed (sequence g)
  let type ← if e.kind == .sequence then pure [] else enclosed (writtenType? g .type)
  expectPunct ")"
  finish .parenthesized start (e :: type)

/-- An arrow function whose parameters stand in parentheses.  Where a colon must follow, it follows
    an arrow function with a result type. -/
def arrowFunction (start : Position) (head : List Node) : Reading Node := do
  let sig ← signature g .mark
  let f ← arrowRest g start (head ++ sig)
  if sig.any fun n => n.role == some .returnType then
    if (← sequel) == .colon && !(← atPunct ":") then fail
  return f

/-- Reads what a word may stand in front of if it has the signature and the arrow of an arrow
    function, and something else if not.  Where a colon must follow, the signature may be something
    else in front of the colon. -/
def arrowOr {α : Type} (word : Reading Unit) (arrow other : Reading α) : Reading α := do
  let isArrow ← looksLike do
    word
    let _ ← signature g .mark
    expectPunct "=>"
  if !isArrow then other
  else if (← sequel) == .colon then either arrow other
  else arrow

/-- What starts with a parenthesis: an arrow function or expressions in parentheses. -/
def parenthesisOrArrow : Reading Node := do
  let start ← here
  let arrow := arrowFunction g start []
  match ← behindBrackets with
  | none => parenthesized g
  | some t =>
    if t.isPunct "=>" then arrow
    else if t.isPunct ":" then arrowOr g (pure ()) arrow (parenthesized g)
    else parenthesized g

/-- A name, or an arrow function whose parameter it is. -/
def nameOrArrow : Reading Node := do
  let start ← here
  let n ← leaf .identifier
  if ← atPunct "=>" then arrowRest g start [n.withRole .parameter] else return n

/-- What starts with the word `async`: a function, or the name of something. -/
def asyncOrName : Reading Node := do
  let t ← peek
  let u ← second
  if ← lineEndsBehind u then nameOrArrow g
  else if u.isWord "function" then
    let _ ← take
    functionExpression g t.start [t.leaf .token]
  else if u.kind == .word then
    let isArrow ← looksLike do
      let _ ← take
      let _ ← take
      expectPunct "=>"
    if isArrow then
      let _ ← take
      let p ← leaf .identifier
      arrowRest g t.start [t.leaf .token, p.withRole .parameter]
    else nameOrArrow g
  else if u.isPunct "(" || u.isPunct "<" then
    let arrow : Reading Node := do
      let _ ← take
      arrowFunction g t.start [t.leaf .token]
    arrowOr g (expectWord "async") arrow (nameOrArrow g)
  else nameOrArrow g

/-- A member behind a point. -/
def memberRest (n : Node) : Reading Node := do
  let t ← peek
  unless t.kind == .word || t.kind == .privateName do fail
  let name ← leaf .propertyName
  finish .member n.span.start [n.withRole .object, name.withRole .property]

/-- A member in brackets. -/
def subscriptRest (n : Node) : Reading Node := do
  expectPunct "["
  let index ← enclosed (sequence g)
  expectPunct "]"
  finish .subscript n.span.start [n.withRole .object, index]

/-- A call with a template. -/
def templateRest (n : Node) : Reading Node := do
  let tpl ← templateLiteral g
  finish .call n.span.start [n.withRole .callee, tpl.withRole .arguments]

/-- A call without type arguments. -/
def callRest (n : Node) : Reading Node := do
  let args ← arguments g
  finish .call n.span.start [n.withRole .callee, args]

/-- The constructor of a new object: an operand whose calls are optional or have a template. -/
def constructorFrom : Nat → Node → Reading Node
  | 0, _ => fail
  | fuel + 1, n => do
    let t ← peek
    if t.isPunct "." then
      let _ ← take
      constructorFrom fuel (← memberRest n)
    else if t.isPunct "?." then
      let _ ← take
      let m ← if ← atPunct "(" then callRest g n
        else if ← atPunct "[" then subscriptRest g n
        else memberRest n
      constructorFrom fuel m
    else if t.isPunct "[" then constructorFrom fuel (← subscriptRest g n)
    else if t.kind == .template then constructorFrom fuel (← templateRest g n)
    else if t.isPunct "!" && !(← lineEnds) then
      let _ ← take
      constructorFrom fuel (← finish .nonNull n.span.start [n])
    else return n

/-- The operators that are words and stand behind an operand. -/
def operatorWords : List String :=
  ["in", "instanceof", "as", "satisfies"]

/-- Whether a token begins an operand that stands for itself. -/
def Token.beginsPrimary (t : Token) : Bool :=
  match t.kind with
  | .word => !operatorWords.contains t.text
  | .number | .string | .template => true
  | .punct => ["(", "[", "\x7b", "/", "/=", "<", "@"].contains t.text
  | _ => false

/-- What starts with the word `new`: a new object, the mark of a construction, or a name. -/
def construction (primary : Reading Node) : Reading Node := do
  let start ← here
  let u ← second
  if u.isPunct "." then
    let _ ← take
    let _ ← take
    expectWord "target"
    finish .construct start []
  else if !u.beginsPrimary || (← lineEndsBehind u) then nameOrArrow g
  else
    let _ ← take
    let first ← if ← atWord "new" then leaf .identifier else primary
    let constructor ← constructorFrom g (← roomLeft) first
    let typeArgs ← typeArguments? g
    let typeArgs := typeArgs.map fun ts => ts.withRole .typeArguments
    let args ← if ← atPunct "(" then pure [← arguments g] else pure []
    finish .construction start (constructor.withRole .constructor :: (typeArgs ++ args))

/-- Whether a token begins an expression. -/
def Token.beginsExpression (t : Token) : Bool :=
  t.beginsPrimary || t.kind == .privateName ||
    (t.kind == .punct && ["!", "~", "-", "+", "++", "--"].contains t.text)

/-- A `yield` with what it yields. -/
def yielding : Reading Node := do
  let start ← here
  expectWord "yield"
  if ← acceptPunct "*" then
    let e ← g .expression
    finish .construct start [e]
  else if !(← peek).beginsExpression || (← lineEnds) then finish .construct start []
  else
    let e ← g .expression
    finish .construct start [e]

/-- An import as an operand: a call of the loader, or the module itself. -/
def importing : Reading Node := do
  let start ← here
  let t ← peek
  expectWord "import"
  if ← atPunct "(" then return t.leaf .construct
  else
    expectPunct "."
    expectWord "meta"
    finish .construct start []

/-- A namespace as an operand: its name, and its contents if there are any. -/
def namespaceRest (start : Position) : Reading Node := do
  let t ← take
  unless t.kind == .word || t.kind == .string do fail
  skipPath
  let body ← if ← atPunct "\x7b" then pure [← block g] else pure []
  finish .construct start body

/-- Whether a name of a namespace stands behind a word, rather than an operator. -/
def Token.namesNamespace (u : Token) : Bool :=
  u.kind == .string || (u.kind == .word && !operatorWords.contains u.text)

/-- What starts with the word `namespace`: a namespace or the name of something. -/
def namespaceOrName : Reading Node := do
  let start ← here
  let u ← second
  if u.namesNamespace && !(← lineEndsBehind u) then
    let _ ← take
    namespaceRest g start
  else nameOrArrow g

/-- What starts with a word. -/
def wordOperand (primary : Reading Node) : Reading Node := do
  let t ← peek
  match t.text with
  | "async" => asyncOrName g
  | "function" => functionExpression g t.start []
  | "class" =>
    let _ ← take
    classRest g .construct t.start []
  | "new" => construction g primary
  | "namespace" => namespaceOrName g
  | "yield" => yielding g
  | "import" => importing
  | "this" | "super" => leaf .construct
  | "null" => leaf .null
  | "true" | "false" => leaf .boolean
  | "undefined" => leaf .undefined
  | "typeof" | "void" | "delete" | "await" | "using" => fail
  | _ => nameOrArrow g

/-- What starts with an angle bracket: an arrow function or, in the markup dialect, an element. -/
def arrowOrElement : Reading Node := do
  let start ← here
  let other : Reading Node := if (← dialect) == .plain then fail else g .element
  arrowOr g (pure ()) (arrowFunction g start []) other

/-- What stands for itself; `fuel` bounds the constructors inside constructors. -/
def primary : Nat → Reading Node
  | 0 => fail
  | fuel + 1 => do
    let t ← peek
    match t.kind with
    | .word => wordOperand g (primary fuel)
    | .number => leaf .number
    | .string => leaf .string
    | .template => templateLiteral g
    | .privateName => if (← second).isWord "in" then leaf .construct else fail
    | .punct =>
      match t.text with
      | "(" => parenthesisOrArrow g
      | "[" => if ← closesBefore "=" then g .binding else arrayLiteral g
      | "\x7b" => if ← closesBefore "=" then g .binding else objectLiteral g
      | "/" | "/=" => regex
      | "<" => arrowOrElement g
      | "@" =>
        let decorations ← decorators g
        expectWord "class"
        classRest g .construct t.start decorations
      | _ => fail
    | _ => fail

/-! ## Calls, members and assignments -/

/-- The marks that can stand behind type arguments which no call follows. -/
def typeArgumentEnds : List String :=
  [")", "]", "\x7b", "\x7d", ",", ";", ":", ".", "?.", "?", "[", "=", "=>", "==", "===", "!=", "!==",
    "<=", ">=", "&&", "||", "??", "&", "|", "^", "+", "-", "*", "/", "%", "**", "<<", ">>", ">>>"]

/-- Whether a token can stand behind type arguments that no call follows. -/
def Token.followsTypeArguments (t : Token) : Bool :=
  match t.kind with
  | .eof => true
  | .word => t.text == "implements" || operatorWords.contains t.text
  | .punct => typeArgumentEnds.contains t.text
  | _ => false

/-- The words that begin a statement and no operand, whatever follows. -/
def onlyStatementWords : List String :=
  ["const", "let", "var", "if", "for", "while", "switch", "with"]

/-- The words that begin an operand, whatever follows. -/
def onlyOperandWords : List String :=
  ["true", "false", "null", "this", "super", "typeof", "void", "delete", "await", "yield",
    "function", "class", "using", "new", "async"]

/-- Whether a word begins a statement of its own, in view of the token behind it, so that it is no
    operand. -/
def Token.beginsStatement (t u : Token) : Bool :=
  t.kind == .word &&
    (onlyStatementWords.contains t.text ||
      (!onlyOperandWords.contains t.text && !u.newline &&
        ((u.kind == .word && !operatorWords.contains u.text) || u.kind == .string ||
          u.isPunct "\x7b" || u.isPunct "@" || (u.isPunct "*" && t.text != "yield"))))

/-- Whether type arguments end where they are read.  Where their line ends and an operand follows on
    the next one, the angle brackets compare. -/
def typeArgumentsEnd : Reading Bool := do
  let t ← peek
  if ← lineEnds then return !t.beginsExpression || t.beginsStatement (← second)
  else return t.followsTypeArguments

/-- A call with type arguments, or an operand with type arguments alone. -/
def instantiation (n : Node) : Reading Node := do
  let ts ← typeArguments g
  let t ← peek
  if t.isPunct "(" then
    let args ← arguments g
    finish .call n.span.start [n.withRole .callee, ts.withRole .typeArguments, args]
  else if t.kind == .template then
    let tpl ← templateLiteral g
    finish .call n.span.start
      [n.withRole .callee, ts.withRole .typeArguments, tpl.withRole .arguments]
  else if ← typeArgumentsEnd then finish .construct n.span.start [n, ts]
  else fail

/-- One call, member or update behind an operand, if there is one. -/
def postfixStep (n : Node) : Reading (Option Node) := do
  let t ← peek
  match if ← lineEnds then .eof else t.kind with
  | .template => return some (← templateRest g n)
  | .punct =>
    match t.text with
    | "." =>
      let _ ← take
      return some (← memberRest n)
    | "?." =>
      let _ ← take
      let u ← peek
      if u.isPunct "[" then return some (← subscriptRest g n)
      else if u.isPunct "(" then return some (← callRest g n)
      else if u.isPunct "<" then
        let ts ← typeArguments g
        let args ← arguments g
        return some (← finish .call n.span.start
          [n.withRole .callee, ts.withRole .typeArguments, args])
      else return some (← memberRest n)
    | "[" => return some (← subscriptRest g n)
    | "(" => return some (← callRest g n)
    | "<" => attempt (instantiation g n)
    | "++" | "--" =>
      let _ ← take
      return some (← finish .update n.span.start [n])
    | _ => return none
  | _ => return none

/-- The calls, members and updates behind an operand. -/
def postfixFrom : Nat → Node → Reading Node
  | 0, _ => fail
  | fuel + 1, n => do
    match ← postfixStep g n with
    | some m => postfixFrom fuel m
    | none => return n

/-- What can be assigned to. -/
def Kind.isAssignable : Kind → Bool
  | identifier | undefined | member | subscript | nonNull | parenthesized | objectPattern
  | arrayPattern => true
  | _ => false

/-- The operators that assign a combination. -/
def combinedAssignments : List String :=
  ["+=", "-=", "*=", "/=", "%=", "**=", "<<=", ">>=", ">>>=", "&=", "|=", "^=", "&&=", "||=", "??="]

/-- An operand with the assignment to it, if there is one. -/
def assigned (n : Node) : Reading Node := do
  let t ← peek
  let assigns := t.kind == .punct && (t.text == "=" || combinedAssignments.contains t.text)
  if n.kind.isAssignable && assigns && !(← lineEnds) then
    let _ ← take
    let value ← g .expression
    finish (if t.text == "=" then .assignment else .construct) n.span.start
      [n.withRole .left, value.withRole .right]
  else return n

/-- An operand with the calls, members and assignments behind it. -/
def completed (n : Node) : Reading Node := do
  assigned g (← postfixFrom g (← roomLeft) n)

/-- An operand with the non-null marks behind it. -/
def markedFrom : Nat → Node → Reading Node
  | 0, _ => fail
  | fuel + 1, n => do
    let t ← peek
    if t.isPunct "!" && !(← lineEnds) then
      let _ ← take
      let marked ← finish .nonNull n.span.start [n]
      markedFrom fuel (← completed g marked)
    else return n

/-! ## Operators in front of an operand -/

/-- What stands in front of an operand: an operator or an asserted type. -/
inductive Front where
  | operator (token : Token)
  | assertion (type : Node)

/-- The operators in front of an operand that are words. -/
def frontWords : List String :=
  ["typeof", "void", "delete", "await"]

/-- The operators in front of an operand that are no words. -/
def frontMarks : List String :=
  ["!", "~", "-", "+", "++", "--"]

/-- Whether a token is an operator in front of an operand. -/
def Token.isFront (t : Token) : Bool :=
  (t.kind == .word && frontWords.contains t.text) || (t.kind == .punct && frontMarks.contains t.text)

/-- An assignment to a resource that is given back at the end. -/
def resource : Reading Node := do
  let start ← here
  expectWord "using"
  let n ← completed g (← primary g (← roomLeft))
  if n.kind == .assignment then finish .assignment start n.children else fail

/-- Reads operators up to what stands for itself, the last operator first. -/
def frontsFrom : Nat → List Front → Reading (List Front × Node)
  | 0, _ => fail
  | fuel + 1, fronts => do
    skipPageComments
    let t ← peek
    if t.isFront then
      let _ ← take
      frontsFrom fuel (.operator t :: fronts)
    else if t.isWord "using" then return (fronts, ← resource g)
    else if t.isPunct "<" && (← dialect) == .plain then
      let arrow : Reading (List Front × Node) := do
        return (fronts, ← arrowFunction g t.start [])
      arrowOr g (pure ()) arrow do
        let ts ← typeArguments g
        frontsFrom fuel (.assertion ts :: fronts)
    else return (fronts, ← primary g (← roomLeft))

/-- An operand with one operator in front of it. -/
def Front.apply (front : Front) (n : Node) : Reading Node :=
  match front with
  | .assertion type => finish .assertion type.span.start [type, n]
  | .operator t => do
    if t.isWord "await" then
      let marked ← markedFrom g (← roomLeft) n
      finish .await t.start [marked]
    else
      let kind := if t.isPunct "++" || t.isPunct "--" then Kind.update else .unary
      finish kind t.start [(t.leaf .token).withRole .operator, n]

/-- An operand with the operators in front of it, the one nearest to it first. -/
def applyFronts : List Front → Node → Reading Node
  | [], n => return n
  | front :: rest, n => do applyFronts rest (← front.apply g n)

/-- An operand of a binary operator. -/
def operand : Reading Node := do
  let (fronts, n) ← frontsFrom g (← roomLeft) []
  applyFronts g fronts (← completed g n)

/-! ## Binary operators -/

/-- The level of a binary operator; an operator of a higher level takes its operands first. -/
def levelOf? (t : Token) : Option Nat :=
  match t.kind with
  | .punct =>
    match t.text with
    | "??" => some 1
    | "||" => some 2
    | "&&" => some 3
    | "|" => some 4
    | "^" => some 5
    | "&" => some 6
    | "==" | "!=" | "===" | "!==" => some 7
    | "<" | ">" | "<=" | ">=" => some 8
    | "<<" | ">>" | ">>>" => some 9
    | "+" | "-" => some 10
    | "*" | "/" | "%" => some 11
    | "**" => some 12
    | _ => none
  | .word => if t.text == "instanceof" || t.text == "in" then some 8 else none
  | _ => none

/-- A left operand that waits for its right one. -/
structure Waiting where
  left : Node
  operator : Token
  level : Nat

/-- Whether an operand goes to the waiting operator rather than to the next one, which has a given
    level.  Powers associate to the right, all other operators to the left. -/
def Waiting.takes (w : Waiting) (level : Nat) : Bool :=
  w.level > level || (w.level == level && level != 12)

/-- Gives an operand to the waiting operators that take it before an operator of a level. -/
def settle (level : Nat) : List Waiting → Node → Reading (List Waiting × Node)
  | [], n => return ([], n)
  | w :: ws, n => do
    if w.takes level then
      let combined ← finish .binary w.left.span.start
        [w.left.withRole .left, (w.operator.leaf .token).withRole .operator, n.withRole .right]
      settle level ws combined
    else return (w :: ws, n)

/-- What goes on with an operand behind the type it is given: all but a template. -/
def castRest (n : Node) : Reading Node := do
  if (← peek).kind == .template then fail else completed g n

/-- Goes on with a chain of operands; `ws` are the waiting operators, the last one first, and `n`
    is the last operand. -/
def chainFrom : Nat → List Waiting → Node → Reading Node
  | 0, _, _ => fail
  | fuel + 1, ws, n => do
    let t ← peek
    let ends ← lineEnds
    match if ends then none else levelOf? t with
    | some level =>
      let (ws, n) ← settle level ws n
      let _ ← take
      let right ← operand g
      chainFrom fuel (⟨n, t, level⟩ :: ws) right
    | none =>
      let (_, n) ← settle 0 ws n
      if ends then return n
      else if t.isPunct "!" then
        let _ ← take
        let marked ← finish .nonNull n.span.start [n]
        chainFrom fuel [] (← completed g marked)
      else if t.isWord "as" then
        let _ ← take
        let type ← if ← acceptWord "const" then pure [] else pure [← casting (g .type)]
        let cast ← finish .asExpression n.span.start (n :: type)
        chainFrom fuel [] (← castRest g cast)
      else if t.isWord "satisfies" then
        let _ ← take
        let type ← casting (g .type)
        let cast ← finish .satisfies n.span.start [n, type]
        chainFrom fuel [] (← castRest g cast)
      else return n

/-- An expression without a comma. -/
def expression : Reading Node := do
  let first ← operand g
  let n ← chainFrom g (← roomLeft) [] first
  let t ← peek
  if t.isPunct "?" && t.plain && !(← lineEnds) then
    let _ ← take
    let consequence ← followed .colon (g .expression)
    expectPunct ":"
    let alternative ← g .expression
    finish .ternary n.span.start
      [n, consequence.withRole .consequence, alternative.withRole .alternative]
  else return n

end RouteAtlas.Code
