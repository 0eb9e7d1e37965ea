/-
  RouteAtlas: types.

  Of a type only its text and the expressions inside it matter.  It is a union or an intersection
  of operands, or a condition on types.

  * `type` reads a type as one node, `result` the result of a function;
  * `typeOperand` reads an operand with the brackets behind it;
  * `objectType` reads members in braces.
-/
import RouteAtlas.Code.Phrase.Binding
import RouteAtlas.Code.Phrase.Template

namespace RouteAtlas.Code

variable (g : Grammar)

/-! ## Object types -/

/-- A member name in brackets, an index or a range of keys. -/
def bracketedKey : Reading Node := enclosed do
  let start ← here
  let index ← attempt do
    expectPunct "["
    let _ ← expectAnyWord
    let types ←
      if ← acceptPunct ":" then pure [← g .type]
      else
        expectWord "in"
        let keys ← g .type
        if ← acceptWord "as" then pure [keys, ← g .type] else pure [keys]
    expectPunct "]"
    finish .construct start types
  match index with
  | some n => return n
  | none => propertyKey g

/-- Whether a token follows another one at once. -/
def Token.touches (t u : Token) : Bool :=
  t.stop.offset == u.start.offset

/-- Consumes the marks of a range of keys that say whether the members may be left out; the colon
    follows them at once. -/
def skipKeyMarks : Reading Unit := do
  let t ← peek
  if t.isPunct "+" || t.isPunct "-" then
    let _ ← take
    unless (← atPunct "?") && t.touches (← peek) do fail
  let t ← peek
  if t.isPunct "?" then
    let _ ← take
    unless t.touches (← peek) do fail

/-- The rest of a member with an index or a range of keys in brackets. -/
def indexRest (start : Position) (key : Node) : Reading Node := do
  skipKeyMarks
  finish .construct start [key, ← writtenType g .type]

/-- A member of an object type with a key. -/
def keyedTypeMember : Reading Node := do
  let start ← here
  let (_, words) ← memberFront methodModifiers true
  let key ← if ← atPunct "[" then bracketedKey g else propertyKey g
  if key.kind == .construct then
    if followsOrder [["readonly"]] words then indexRest g start key else fail
  else
    let _ ← acceptPunct "?"
    if (← atPunct "(") || (← atPunct "<") then
      unless followsOrder methodOrder words do fail
      finish .construct start (key :: (← signature g .stop))
    else
      unless followsOrder propertyOrder words do fail
      finish .construct start (key :: (← writtenType? g .type))

/-- The signature of a construction behind the words in front of it. -/
def constructSignature : Reading Node := do
  let start ← here
  let typeParams ← typeParameters? g
  let ps ← parameters g
  let type ← followed .stop (writtenType? g .returnType)
  finish .construct start (typeParams ++ ps :: type)

/-- Whether an export is next, rather than a member whose name is the word. -/
def atExport : Reading Bool := do
  let u ← second
  return (← atWord "export") && !(u.newline && u.endsLine true) &&
    (u.kind == .word || u.isPunct "*" || u.isPunct "\x7b" || u.isPunct "=" || u.isPunct "@")

/-- A member of an object type: a signature, an index with a type, a property or an export. -/
def typeMember : Reading Node := do
  let t ← peek
  let u ← second
  if t.isWord "abstract" then
    let _ ← take
    expectWord "new"
    constructSignature g
  else if t.isWord "new" && (u.isPunct "(" || u.isPunct "<") then
    let _ ← take
    constructSignature g
  else if t.isPunct "(" || t.isPunct "<" then finish .construct t.start (← signature g .stop)
  else if t.isPunct "+" || t.isPunct "-" then
    let _ ← take
    expectWord "readonly"
    let key ← bracketedKey g
    if key.kind == .construct then indexRest g t.start key else fail
  else if ← atExport then g .statement
  else keyedTypeMember g

/-- Whether the closing bar and brace of an exact object type are next. -/
def atExactEnd : Reading Bool := do
  let t ← peek
  let u ← second
  return t.isPunct "|" && u.isPunct "\x7d" && t.touches u

/-- Whether the closing mark of an object type is next. -/
def atObjectTypeEnd : Reading Bool := do
  return (← atPunct "\x7d") || (← atExactEnd)

/-- Ends a member of a class: with a separator, or where a line or the body ends. -/
def memberEnd (afterType : Bool) : Reading Unit := do
  let t ← peek
  if t.isPunct ";" || t.isPunct "," then
    let _ ← take
  else unless t.endsStatement afterType do fail

/-- An object type: a separator may stand in front of the members too, but not alone.  A bar may
    touch the braces from inside. -/
def objectType : Reading Node := do
  let start ← here
  let opening ← peek
  expectPunct "\x7b"
  let bar ← peek
  if bar.isPunct "|" && opening.touches bar then
    let _ ← take
  let t ← peek
  if t.isPunct "," || t.isPunct ";" then
    let _ ← take
    if ← atObjectTypeEnd then fail
  let members ← collect do
    skipPageComments
    if ← atObjectTypeEnd then return none
    else
      let m ← followed .stop (typeMember g)
      unless ← atExactEnd do memberEnd true
      return some m
  let _ ← acceptPunct "|"
  expectPunct "\x7d"
  finish .construct start members

/-! ## Names and queries -/

/-- The words that name types without arguments. -/
def plainTypes : List String :=
  ["any", "number", "boolean", "string", "symbol", "unknown", "never", "object", "void", "null",
    "undefined", "true", "false", "this", "const"]

/-- The words that begin a type and are no names in it. -/
def typeKeywords : List String :=
  plainTypes ++ ["typeof", "keyof", "readonly", "unique", "infer", "new", "abstract", "import"]

/-- Names behind points. -/
def skipPath : Reading Unit :=
  repeated do
    if ← acceptPunct "." then
      let t ← peek
      unless t.kind == .word || t.kind == .privateName do fail
      let _ ← take
      return true
    else return false

/-- Type arguments, if the angle bracket that is next opens some. -/
def typeArguments? : Reading (List Node) := do
  if ← atPunct "<" then
    match ← attempt (typeArguments g) with
    | some ts => return [ts]
    | none => return []
  else return []

/-- Whether brackets or a condition go on with a type name. -/
def goesOnBehindPath : Reading Bool := do
  let t ← peek
  let u ← second
  return t.isPunct "<" || t.isWord "extends" || (t.isPunct "[" && u.isPunct "]")

/-- The names behind points of a type name.  Behind `as` and `satisfies` a type name has two parts,
    and the rest are members of the operand, unless the type goes on behind them. -/
def skipTypePath : Reading Unit := do
  if ← acceptPunct "." then
    let _ ← expectAnyWord
    let _ ← attempt do
      skipPath
      if (← inCast) && !(← goesOnBehindPath) then fail

/-- A type with a name. -/
def namedType : Reading Node := do
  let t ← expectAnyWord
  if plainTypes.contains t.text then finish .construct t.start []
  else
    skipTypePath
    let args ← typeArguments? g
    finish .construct t.start args

/-- A type of another module. -/
def importedType : Reading Node := do
  let t ← peek
  expectWord "import"
  let args ← arguments g
  skipPath
  finish .construct t.start [args]

/-- Goes on with what `typeof` asks for: members, indices, calls and type arguments. -/
def queriedFrom : Nat → Node → Reading Node
  | 0, _ => fail
  | fuel + 1, n => do
    let t ← peek
    let goOn := queriedFrom fuel
    if t.isPunct "." || (t.isPunct "?." && !(← second).isPunct "[") then
      let _ ← take
      let u ← peek
      unless u.kind == .word || u.kind == .privateName do fail
      let name ← leaf .propertyName
      goOn (← finish .member n.span.start [n.withRole .object, name.withRole .property])
    else if ← typeEnds then return n
    else if t.isPunct "?." || t.isPunct "[" then
      let index ← attempt do
        let _ ← acceptPunct "?."
        expectPunct "["
        let u ← take
        unless u.kind == .string || u.kind == .number || plainTypes.contains u.text do fail
        expectPunct "]"
        finish .subscript n.span.start [n.withRole .object]
      match index with
      | some m => goOn m
      | none => return n
    else if n.kind == .call then return n
    else if t.isPunct "(" then
      let args ← arguments g
      goOn (← finish .call n.span.start [n.withRole .callee, args])
    else
      match ← typeArguments? g with
      | [] => return n
      | args => finish .construct n.span.start (n :: args)

/-- The type of something that the module names. -/
def queriedType : Reading Node := do
  let start ← here
  expectWord "typeof"
  let t ← expectAnyWord
  let first ←
    if t.text == "import" then
      let args ← arguments g
      finish .call t.start [(t.leaf .construct).withRole .callee, args]
    else if t.text == "this" then pure (t.leaf .construct)
    else pure (t.leaf .identifier)
  let queried ← queriedFrom g (← roomLeft) first
  finish .construct start [queried]

/-- A type to be found out: a name, with a bound if there is one. -/
def inferredType : Reading Node := do
  let start ← here
  expectWord "infer"
  let _ ← expectAnyWord
  if (← atWord "extends") && !(← typeEnds) then
    let _ ← take
    finish .construct start [← g .type]
  else finish .construct start []

/-! ## Operands -/

/-- The parameters of a function type with its result, or those of a construction with its type. -/
def functionType (goal : Goal) : Reading Node := do
  let start ← here
  let typeParams ← typeParameters? g
  let ps ← parameters g
  expectPunct "=>"
  let r ← g goal
  finish .construct start (typeParams ++ [ps, r])

/-- The label of an element of a tuple type, with its colon; one of the rest may be a word that
    begins a type, and has no mark that it may be left out. -/
def tupleLabel (rest : Bool) : Reading Unit := do
  let t ← expectAnyWord
  if !rest then
    if typeKeywords.contains t.text then fail
    let _ ← acceptPunct "?"
  expectPunct ":"

/-- An element of a tuple type: a type with a label, a rest or an optional type. -/
def tupleElement : Reading Node := do
  let start ← here
  let rest ← acceptPunct "..."
  let label ← attempt (tupleLabel rest)
  let type ← g .type
  if !rest && label.isNone then
    let _ ← acceptPunct "?"
  finish .construct start [type]

/-- A type that starts with a word. -/
def wordType : Reading Node := do
  let t ← peek
  match t.text with
  | "typeof" => queriedType g
  | "infer" => inferredType g
  | "unique" =>
    let _ ← take
    expectWord "symbol"
    finish .construct t.start []
  | "new" =>
    let _ ← take
    functionType g .type
  | "abstract" =>
    let _ ← take
    expectWord "new"
    functionType g .type
  | _ => namedType g

/-- A type in parentheses, or that of a function. -/
def parenthesizedType : Reading Node := do
  if ← closesBefore "=>" then functionType g .result
  else
    let start ← here
    expectPunct "("
    let type ← enclosed (g .type)
    expectPunct ")"
    finish .construct start [type]

/-- Whether brackets can go on with the type that starts here: not with the type of a function or a
    construction, a read-only type, or one to be found out. -/
def atBracketable : Reading Bool := do
  let t ← peek
  if t.kind == .word then
    return !(["readonly", "infer", "import", "new"].contains t.text ||
      (t.text == "abstract" && (← second).isWord "new"))
  else if t.isPunct "(" then return !(← closesBefore "=>")
  else return !t.isPunct "<"

/-- A type that stands for itself. -/
def primaryType : Reading Node := do
  let t ← peek
  match t.kind with
  | .string | .number => leaf .construct
  | .template => template false do
      if (← atWord "infer") || (← atBracketable) then g .type else fail
  | .word => wordType g
  | .punct =>
    match t.text with
    | "\x7b" => objectType g
    | "<" => functionType g .result
    | "(" => parenthesizedType g
    | "[" =>
      let _ ← take
      let es ← listed "]" (tupleElement g)
      finish .construct t.start es
    | "*" => leaf .construct
    | "-" | "+" =>
      let _ ← take
      unless (← peek).kind == .number do fail
      leaf .construct
    | _ => fail
  | _ => fail

/-- The brackets behind a type. -/
def typeBracketsFrom : Nat → Node → Reading Node
  | 0, _ => fail
  | fuel + 1, n => do
    if !(← atPunct "[") || (← typeEnds) then return n
    else
      let _ ← take
      let index ← if ← atPunct "]" then pure [] else pure [← enclosed (g .type)]
      expectPunct "]"
      typeBracketsFrom fuel (← finish .construct n.span.start (n :: index))

/-- An operand of a union.  Brackets do not go on with every type, but with a union that the type
    ends. -/
def typeOperand (joined : Bool) : Reading Node := do
  skipPageComments
  repeated do
    if (← atPunct "?") || (← atWord "keyof") then
      let _ ← take
      unless ← atBracketable do fail
      return true
    else acceptWord "readonly"
  let brackets := joined || (← atBracketable)
  let n ← if ← atWord "import" then importedType g else primaryType g
  if brackets then typeBracketsFrom g (← roomLeft) n else return n

/-! ## Whole types -/

/-- Operands with `|` or `&` between them, and perhaps in front of them. -/
def typeOperands : Reading (List Node) := do
  let joined ← do
    if ← acceptPunct "|" then pure true else acceptPunct "&"
  let first ← typeOperand g joined
  let others ← collect do
    let t ← peek
    if (t.isPunct "|" || t.isPunct "&") && !(← atExactEnd) then
      let _ ← take
      return some (← typeOperand g true)
    else return none
  return first :: others

/-- The condition on a type, if there is one. -/
def typeCondition? : Reading (List Node) := do
  if (← atWord "extends") && !(← typeEnds) then
    let condition ← attempt do
      let _ ← take
      let bound ← g .type
      expectPunct "?"
      let yes ← g .type
      expectPunct ":"
      return [bound, yes, ← g .type]
    return condition.getD []
  else return []

/-- A type. -/
def type : Reading Node := do
  let start ← here
  let operands ← typeOperands g
  let condition ← typeCondition? g
  finish .typeText start (operands ++ condition)

/-! ## Results -/

/-- The type that a name is found to have, behind the name. -/
def foundType : Reading (List Node) := do
  if (← atWord "is") && !(← typeEnds) then
    let _ ← take
    return [← g .type]
  else return []

/-- What a function results in: that a name holds or has a type, or a type. -/
def result : Reading Node := do
  let start ← here
  let t ← peek
  let u ← second
  if t.isWord "asserts" then
    let _ ← take
    let _ ← expectAnyWord
    finish .typeText start (← foundType g)
  else if t.kind == .word && u.isWord "is" && !(← lineEndsBehind u) then
    let _ ← take
    finish .typeText start (← foundType g)
  else g .type

end RouteAtlas.Code
