/-
  RouteAtlas: names, patterns and parameters.

  A binding is a name or a pattern of names.  A parameter is a binding with decorators, modifiers,
  a mark that it may be left out, a type and a default.

  * `binding` reads a binding, `target` what an assignment to a pattern reaches;
  * `parameters` reads a list of parameters in parentheses;
  * `writtenType` reads a type behind a colon, `typeArguments` and `typeParameters` read lists in
    angle brackets;
  * `signature` is what stands between the name of a function and its body.
-/
import RouteAtlas.Code.Phrase.Argument

namespace RouteAtlas.Code

variable (g : Grammar)

/-! ## Types that belong to names -/

/-- A colon and a type, or a result. -/
def writtenType (goal : Goal) : Reading Node := do
  let start ← here
  expectPunct ":"
  let type ← g goal
  finish .writtenType start [type]

/-- A type behind a colon, if there is one, in a role. -/
def writtenType? (role : Role) (goal : Goal := .type) : Reading (List Node) := do
  if ← atPunct ":" then
    return [(← writtenType g goal).withRole role]
  else return []

/-- An equals sign and an expression, if there are any, in a role. -/
def initializer? (role : Role) : Reading (List Node) := do
  if ← acceptPunct "=" then
    return [(← g .expression).withRole role]
  else return []

/-- Items with commas between them up to a closing angle bracket, which is consumed; a comma may
    stand before it. -/
def angled (item : Reading Node) : Reading (List Node) := do
  expectPunct "<"
  let first ← enclosed item
  let others ← collect do
    if ← acceptPunct "," then
      if charAt (← peek).text 0 == '>' then return none else return some (← enclosed item)
    else return none
  expectCloseAngle
  return first :: others

/-- Types in angle brackets. -/
def typeArguments : Reading Node := do
  let start ← here
  let types ← angled (g .type)
  finish .typeArguments start types

/-- A type parameter: a name with a bound and a default, perhaps with `const` in front. -/
def typeParameter : Reading Node := do
  let start ← here
  let _ ← acceptWord "const"
  let _ ← expectAnyWord
  let bound ←
    if (← atWord "extends") || (← atPunct ":") then
      let _ ← take
      pure [← g .type]
    else pure []
  let default_ ← if ← acceptPunct "=" then pure [← g .type] else pure []
  finish .construct start (bound ++ default_)

/-- Type parameters in angle brackets. -/
def typeParameters : Reading Node := do
  let start ← here
  let ps ← angled (typeParameter g)
  finish .construct start ps

/-- Type parameters, if an angle bracket is next. -/
def typeParameters? : Reading (List Node) := do
  if ← atPunct "<" then return [← typeParameters g] else return []

/-! ## Names of members -/

/-- The name of a member: a word, a private name, a string, a number or an expression in
    brackets. -/
def propertyKey : Reading Node := do
  let t ← peek
  match t.kind with
  | .word | .privateName => leaf .propertyName
  | .string => leaf .string
  | .number => leaf .number
  | _ =>
    let start ← here
    expectPunct "["
    let e ← enclosed (g .expression)
    expectPunct "]"
    finish .computedName start [e]

/-- Whether a token can begin the name of a member. -/
def Token.beginsKey (t : Token) : Bool :=
  match t.kind with
  | .word | .privateName | .string | .number => true
  | _ => t.isPunct "["

/-! ## Words in front of members -/

/-- The words that say who may use a member. -/
def accessWords : List String :=
  ["public", "private", "protected"]

/-- The words in front of a property, in order; of those on one place one can stand. -/
def propertyOrder : List (List String) :=
  [accessWords, ["static"], ["override"], ["readonly"]]

/-- The words in front of a method, and the star of one that generates, in order. -/
def methodOrder : List (List String) :=
  propertyOrder ++ [["async"], ["get", "set", "*"]]

/-- The words that may stand in front of a method. -/
def methodModifiers : List String :=
  accessWords ++ ["static", "override", "readonly", "async", "get", "set"]

/-- Whether words stand in an order. -/
def followsOrder : List (List String) → List String → Bool
  | _, [] => true
  | [], _ :: _ => false
  | place :: order, w :: ws =>
    if place.contains w then followsOrder order ws else followsOrder order (w :: ws)

/-- Consumes the words of a list that stand in front of a name.  Where lines count, the end of a
    line makes the word a name, unless it can name nothing. -/
def memberModifiers (modifiers : List String) (lines : Bool) : Reading (List Node) :=
  collect do
    let t ← peek
    let u ← second
    let names := t.text != "abstract" && t.text != "accessor"
    let named := names && lines && u.newline && u.endsLine true
    if t.kind == .word && modifiers.contains t.text && (u.isPunct "*" || u.beginsKey) && !named then
      let _ ← take
      return some (t.leaf .token)
    else return none

/-- Consumes the words of a list that stand in front of a name, and the star behind them: the words
    as nodes, and their texts with that of the star. -/
def memberFront (modifiers : List String) (lines : Bool) : Reading (List Node × List String) := do
  let nodes ← memberModifiers modifiers lines
  let star ← acceptPunct "*"
  return (nodes, nodes.map Node.text ++ if star then ["*"] else [])

/-! ## Patterns -/

/-- The words that begin an operand and name nothing. -/
def operandKeywords : List String :=
  ["true", "false", "null", "this", "super", "typeof", "void", "delete", "await", "yield",
    "function", "class", "import", "using"]

/-- Whether the token stands behind the target of a pattern or of a parameter. -/
def Token.endsTarget (t : Token) : Bool :=
  t.kind == .punct && [",", "=", ")", "]", "\x7d", "?", ":"].contains t.text

/-- The places besides names and patterns that can be assigned to. -/
def Kind.isPlace : Kind → Bool
  | member | subscript | nonNull => true
  | _ => false

/-- A place to assign to that is no binding, with its default if there is one. -/
def place : Reading Node := do
  let n ← g .operand
  let n ← if ← acceptPunct "!" then finish .nonNull n.span.start [n] else pure n
  let assigned := if n.kind == .assignment then (n.field? .left).getD n else n
  if assigned.kind.isPlace then return n else fail

/-- What a pattern assigns to: a binding with one of the given tokens behind it, or another
    place. -/
def target (ends : Token → Bool) : Reading Node := do
  let bound ← attempt do
    let t ← peek
    if t.kind == .word && operandKeywords.contains t.text then fail
    let b ← g .binding
    if ends (← peek) then return b else fail
  match bound with
  | some b => return b
  | none => place g

/-- The rest of a pattern. -/
def restTarget : Reading Node := do
  let start ← here
  expectPunct "..."
  let t ← target g Token.endsTarget
  finish .construct start [t]

/-- A target or the rest of a pattern, with a default if there is one. -/
def targetWithDefault : Reading Node := do
  let start ← here
  let t ← if ← atPunct "..." then restTarget g else target g Token.endsTarget
  match ← initializer? g .right with
  | [] => return t
  | init => finish .construct start (t.withRole .left :: init)

/-- A pattern with a default as a member of an object pattern. -/
def nestedPattern : Reading Node := do
  let start ← here
  let t ← g .binding
  match ← initializer? g .right with
  | [] => fail
  | init => finish .defaultPattern start (t.withRole .left :: init)

/-- A member of an object pattern. -/
def patternMember : Reading Node := do
  if ← atPunct "..." then restTarget g
  else if (← atPunct "\x7b") || ((← atPunct "[") && (← closesBefore "=")) then nestedPattern g
  else
    let start ← here
    let t ← peek
    let key ← propertyKey g
    if ← acceptPunct ":" then
      let value ← targetWithDefault g
      finish .pairPattern start [key.withRole .key, value.withRole .value]
    else if t.kind == .word then
      let name := t.leaf .shorthandPattern
      match ← initializer? g .right with
      | [] => return name
      | init => finish .defaultPattern start (name.withRole .left :: init)
    else fail

/-- A name or a pattern of names. -/
def binding : Reading Node := do
  let t ← peek
  let start ← here
  if t.kind == .word then leaf .identifier
  else if ← acceptPunct "\x7b" then
    let members ← separated "\x7d" true (patternMember g)
    finish .objectPattern start members
  else if ← acceptPunct "[" then
    let items ← separated "]" true (targetWithDefault g)
    finish .arrayPattern start items
  else fail

/-! ## Decorators and parameters -/

/-- Goes on from a name with the members behind points. -/
def pathFrom : Nat → Node → Reading Node
  | 0, _ => fail
  | fuel + 1, n => do
    if ← acceptPunct "." then
      let name ← expectAnyWord
      pathFrom fuel (← finish .member n.span.start
        [n.withRole .object, (name.leaf .propertyName).withRole .property])
    else return n

/-- What a decorator applies: a name with members, called once at most. -/
def decoration : Reading Node := do
  let name ← expectAnyWord
  let callee ← pathFrom (← roomLeft) (name.leaf .identifier)
  let typeArgs ← if ← atPunct "<" then pure [← typeArguments g] else pure []
  if ← atPunct "(" then
    let args ← arguments g
    finish .call name.start (callee.withRole .callee :: (typeArgs ++ [args]))
  else if typeArgs.isEmpty then return callee
  else fail

/-- A decorator, in parentheses or not. -/
def decorator : Reading Node := do
  let start ← here
  expectPunct "@"
  let e ←
    if ← acceptPunct "(" then
      let e ← enclosed (decoration g)
      expectPunct ")"
      pure e
    else decoration g
  finish .construct start [e]

/-- The decorators in front of a declaration. -/
def decorators : Reading (List Node) :=
  collect do
    if ← atPunct "@" then return some (← decorator g) else return none

/-- Consumes a modifier in front of a parameter, if one of the words is next. -/
def skipParameterModifier (words : List String) : Reading Unit := do
  let t ← peek
  let u ← second
  if t.kind == .word && words.contains t.text &&
      (u.kind == .word || u.isPunct "\x7b" || u.isPunct "[" || u.isPunct "...") then
    let _ ← take

/-- Consumes the modifiers in front of a parameter. -/
def skipParameterModifiers : Reading Unit := do
  skipParameterModifier accessWords
  skipParameterModifier ["override"]
  skipParameterModifier ["readonly"]

/-- What a parameter binds. -/
def parameterPattern : Reading Node := do
  if ← atPunct "..." then restTarget g
  else if (← atWord "this") && (← second).endsTarget then leaf .construct
  else target g Token.endsTarget

/-- Whether a parameter may be left out: a mark says so if its type or the end of the parameter
    follows, with white space between them at most. -/
def acceptOptionalMark : Reading Bool := do
  if ← atPunct "?" then
    unless [':', ')', ','].contains (← characterBehind) do fail
    acceptPunct "?"
  else return false

/-- A parameter. -/
def parameter : Reading Node := do
  let start ← here
  let decorations ← decorators g
  skipParameterModifiers
  let pattern ← parameterPattern g
  let kind := if ← acceptOptionalMark then Kind.optionalParameter else .requiredParameter
  let type ← writtenType? g .type
  let init ← initializer? g .value
  finish kind start (decorations ++ pattern.withRole .pattern :: (type ++ init))

/-- Parameters in parentheses. -/
def parameters : Reading Node := do
  let start ← here
  expectPunct "("
  let ps ← separated ")" false (parameter g)
  return (← finish .parameters start ps).withRole .parameters

/-- The type parameters, the parameters and the result type of a function; the result type stands
    before a given sequel. -/
def signature (sequel : Sequel) : Reading (List Node) := do
  let typeParams ← typeParameters? g
  let ps ← parameters g
  let result ← followed sequel (writtenType? g .returnType .result)
  return typeParams ++ ps :: result

end RouteAtlas.Code
