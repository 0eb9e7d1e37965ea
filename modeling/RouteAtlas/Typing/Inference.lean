/-
  RouteAtlas: the types of expressions.

  The type of an expression is what the source spells out: written types, the shapes of literals,
  and what is known of the names of the module.  Everything else is `any`.

  An expression contains others and names stand for others, so each rule is written over `infer`,
  the types of the expressions inside.  A name that is being resolved already is `any`; `resolving`
  are those names, and the members `object.key` being looked up.  Types that nest deeper than a
  limit have no text.

  * `infer scope limit resolving e` is the type of the expression `e`;
  * `resolve`, `functionType` and `returnType` are the types of a name, of a function and of what a
    function returns.
-/
import RouteAtlas.Typing.Scope

namespace RouteAtlas.Typing

open RouteAtlas.Code RouteAtlas.Text

/-- The types of the expressions inside an expression; none where they nest too deep. -/
abbrev Infer := List String → Node → Option String

/-! ## What the language knows -/

/-- The types of calls of well-known functions. -/
def knownCalls : List (String × String) :=
  [ ("json", "Response"), ("text", "Response"), ("error", never), ("redirect", never),
    ("fetch", "Promise<Response>"), ("Number", "number"), ("parseInt", "number"),
    ("parseFloat", "number"), ("String", "string"), ("Boolean", "boolean"),
    ("encodeURIComponent", "string"), ("decodeURIComponent", "string") ]

/-- The types of calls of well-known members. -/
def knownMemberCalls : List (String × String) :=
  [ ("JSON.stringify", "string"), ("JSON.parse", any), ("Date.now", "number"),
    ("Object.keys", "string[]"), ("Array.isArray", "boolean"), ("crypto.randomUUID", "string") ]

/-- Methods that give a string. -/
def stringMethods : List String :=
  ["toString", "toUpperCase", "toLowerCase", "trim", "trimStart", "trimEnd", "join", "padStart",
    "padEnd", "toFixed", "toISOString", "replace", "replaceAll"]

/-- Methods that give a truth value. -/
def booleanMethods : List String :=
  ["includes", "startsWith", "endsWith", "has", "some", "every", "test"]

/-- Methods that give a number. -/
def numberMethods : List String :=
  ["indexOf", "lastIndexOf", "findIndex", "getTime"]

/-- Operators that compare. -/
def comparisons : List String :=
  ["==", "!=", "===", "!==", "<", ">", "<=", ">=", "instanceof", "in"]

/-- Operators that give one of their operands. -/
def choices : List String :=
  ["&&", "||", "??"]

/-- Operators that give a number. -/
def arithmetic : List String :=
  ["-", "*", "/", "%", "**", "&", "|", "^", "<<", ">>", ">>>"]

/-! ## Functions and names -/

section
variable (infer : Infer) (resolving : List String)

/-- The type of the child in a role. -/
def inferField (n : Node) (role : Role) : Option String :=
  match n.field? role with
  | some c => infer resolving c
  | none => some any

/-- The type of the first named child. -/
def inferFirst (n : Node) : Option String :=
  match n.named.head? with
  | some c => infer resolving c
  | none => some any

/-- The parameters of a function as they are written. -/
def parametersText (f : Node) : String :=
  match f.field? .parameter with
  | some p => p.text
  | none =>
    match f.field? .parameters with
    | none => ""
    | some ps => joinWith ", " (ps.operands.map fun p => collapse p.text)

/-- Whether a function is asynchronous. -/
def isAsync (f : Node) : Bool :=
  f.hasToken "async"

/-- The type of what a return statement returns. -/
def returnedType (statement : Node) : Option String :=
  match statement.named.head? with
  | some e => infer resolving e
  | none => some "undefined"

/-- The type of what the body of a function gives: that of its expression, or the union of what its
    own return statements return. -/
def bodyType (f : Node) : Option String :=
  match f.field? .body with
  | none => some "void"
  | some body =>
    if body.kind != .block then infer resolving body
    else
      match f.ownReturns with
      | [] => some "void"
      | returns => (returns.mapM (returnedType infer resolving)).map union

/-- The type of what a function returns. -/
def returnType (f : Node) : Option String :=
  match typeTextOf (f.field? .returnType) with
  | some type => some type
  | none => (bodyType infer resolving f).map fun t => if isAsync f then promiseOf t else t

/-- The type of a function. -/
def functionType (f : Node) : Option String :=
  (returnType infer resolving f).map fun t => "(" ++ parametersText f ++ ") => " ++ t

/-- The type of a name. -/
def resolve (scope : Scope) (name : String) : Option String :=
  if resolving.contains name then some any
  else
    match scope.find? name with
    | some (.annotated type) => some type
    | some (.member type key) => some (memberOf type key)
    | some (.value e) => infer (name :: resolving) e
    | some (.function f) => functionType infer (name :: resolving) f
    | some .untyped | none => some any

/-! ## Literals -/

/-- The key of a member as a type shows it; a key that is computed is none. -/
def propertyKey? (key : Option Node) : Option String :=
  match key with
  | none => none
  | some k =>
    if k.kind == .computedName then none
    else if k.kind == .string then
      let bare := (k.text.toList.drop 1).dropLast
      if isName bare then some (.ofList bare) else some ("\"" ++ .ofList bare ++ "\"")
    else some k.text

/-- A member of an object type. -/
def memberText (key type : String) : String :=
  key ++ ": " ++ type ++ ";"

/-- The members of the type of an object that one of its members gives: at most one. -/
def objectMembers (scope : Scope) (m : Node) : Option (List String) :=
  match m.kind with
  | .pair =>
    match propertyKey? (m.field? .key) with
    | none => some []
    | some key => (inferField infer resolving m .value).map fun t => [memberText key t]
  | .shorthand => (resolve infer resolving scope m.text).map fun t => [memberText m.text t]
  | .methodDefinition =>
    match propertyKey? (m.field? .name) with
    | none => some []
    | some key => (functionType infer resolving m).map fun t => [memberText key t]
  | _ => some []

/-- The type with the given members. -/
def objectText (members : List String) : String :=
  if members.isEmpty then "\x7b\x7d" else "\x7b " ++ joinWith " " members ++ " \x7d"

/-- The type of an object. -/
def objectType (scope : Scope) (n : Node) : Option String :=
  (n.named.mapM (objectMembers infer resolving scope)).map fun ms => objectText ms.flatten

/-- The elements of an array that are no spread expressions. -/
def elements (n : Node) : List Node :=
  n.operands.filter fun e => e.kind != .spread

/-- The type of an array. -/
def arrayType (n : Node) : Option String :=
  match elements n with
  | [] => some (arrayOf any)
  | es => (es.mapM (infer resolving)).map fun ts => arrayOf (union ts)

/-! ## Operators -/

/-- The type of a sum. -/
def sumType (left right : String) : String :=
  if left == "string" || right == "string" then "string"
  else if left == "number" && right == "number" then "number"
  else any

/-- The type that an operator gives to the types of its operands. -/
def operatorType (op left right : String) : String :=
  if choices.contains op then union [left, right]
  else if op == "+" then sumType left right
  else if arithmetic.contains op then "number"
  else any

/-- The type of two operands with an operator between them. -/
def binaryType (n : Node) : Option String :=
  let op := n.fieldText .operator
  if comparisons.contains op then some "boolean"
  else
    (inferField infer resolving n .left).bind fun left =>
      (inferField infer resolving n .right).map fun right => operatorType op left right

/-- The type of an operand with an operator in front of it. -/
def unaryType (op : String) : String :=
  if op == "!" || op == "delete" then "boolean"
  else if op == "typeof" then "string"
  else if op == "void" then "undefined"
  else "number"

/-! ## Calls and members -/

/-- The type of a call of a member, from how the member is written and its last name. -/
def memberCallType (text method : String) : String :=
  match knownMemberCalls.lookup text with
  | some type => type
  | none =>
    if endsWith "searchParams.get" text then "string | null"
    else if endsWith "searchParams.getAll" text then "string[]"
    else if startsWith "Math." text then "number"
    else if stringMethods.contains method then "string"
    else if booleanMethods.contains method then "boolean"
    else if numberMethods.contains method then "number"
    else any

/-- The type of a call of a name. -/
def namedCallType (scope : Scope) (name : String) : Option String :=
  match scope.find? name with
  | none => some ((knownCalls.lookup name).getD any)
  | some _ =>
    match scope.callable? name with
    | none => some any
    | some f =>
      if resolving.contains name then some any else returnType infer (name :: resolving) f

/-- The type of a call. -/
def callType (scope : Scope) (n : Node) : Option String :=
  match (n.field? .callee).map Node.unwrap with
  | none => some any
  | some callee =>
    match callee.kind with
    | .identifier => namedCallType infer resolving scope callee.text
    | .member => some (memberCallType (squeeze callee.text) (callee.fieldText .property))
    | _ => some any

/-- The type of a member of an object that is written down; the first pair or name with the key
    counts. -/
def literalMember (scope : Scope) (key : String) : List Node → Option String
  | [] => some any
  | m :: ms =>
    if m.kind == .pair && propertyKey? (m.field? .key) == some key then
      inferField infer resolving m .value
    else if m.kind == .shorthand && m.text == key then resolve infer resolving scope key
    else literalMember scope key ms

/-- The type of a member of something of a type. -/
def namedMember (type key : String) : String :=
  if type != any && isNamedType type then memberOf type key else any

/-- The type of a member of an object that is no name. -/
def plainMemberType (scope : Scope) (object : Node) (key : String) : Option String :=
  if object.kind == .object then literalMember infer resolving scope key object.named
  else (infer resolving object).map fun type => namedMember type key

/-- The type of a member of a name: of the object that the name stands for, unless the member is
    being looked up already, or of the type of the name. -/
def nameMemberType (scope : Scope) (name : Node) (key : String) : Option String :=
  let path := name.text ++ "." ++ key
  match scope.value? name.text with
  | some e =>
    if e.kind == .object then
      if resolving.contains path then some any
      else literalMember infer (path :: resolving) scope key e.named
    else (infer resolving name).map fun type => namedMember type key
  | none => (infer resolving name).map fun type => namedMember type key

/-- The type of a member. -/
def memberType (scope : Scope) (n : Node) : Option String :=
  let key := n.fieldText .property
  if key == "length" then some "number"
  else
    match (n.field? .object).map Node.unwrap with
    | none => some any
    | some object =>
      if object.kind == .identifier then nameMemberType infer resolving scope object key
      else plainMemberType infer resolving scope object key

/-! ## Expressions -/

/-- The type of a name in an expression. -/
def nameType (scope : Scope) (name : String) : Option String :=
  if name == "undefined" then some "undefined"
  else if name == "NaN" || name == "Infinity" then some "number"
  else resolve infer resolving scope name

/-- The type behind `as`, or that of the operand if it is only made constant. -/
def assertedType (n : Node) : Option String :=
  match n.named with
  | _ :: rest@(_ :: _) => some ((rest.getLast?.map fun type => collapse type.text).getD any)
  | _ => inferFirst infer resolving n

/-- The type in angle brackets in front of an operand. -/
def bracketedType (n : Node) : String :=
  match n.named with
  | type :: _ :: _ => collapse (strip ['<', '>'] type.text)
  | _ => any

/-- The type of a new object: its constructor with the type arguments. -/
def constructedType (n : Node) : String :=
  let constructor := n.fieldText .constructor
  if constructor.isEmpty then any else collapse (constructor ++ n.fieldText .typeArguments)

/-- The type of an expression, over the types of the expressions inside it. -/
def typeOf (scope : Scope) (n : Node) : Option String :=
  match n.kind with
  | .string | .template => some "string"
  | .number => some (if endsWith "n" n.text then "bigint" else "number")
  | .boolean => some "boolean"
  | .null => some "null"
  | .undefined => some "undefined"
  | .regex => some "RegExp"
  | .identifier => nameType infer resolving scope n.text
  | .object => objectType infer resolving scope n
  | .array => arrayType infer resolving n
  | .parenthesized | .satisfies | .nonNull => inferFirst infer resolving n
  | .asExpression => assertedType infer resolving n
  | .assertion => some (bracketedType n)
  | .await => (inferFirst infer resolving n).map awaited
  | .ternary =>
    (inferField infer resolving n .consequence).bind fun yes =>
      (inferField infer resolving n .alternative).map fun no => union [yes, no]
  | .binary => binaryType infer resolving n
  | .unary => some (unaryType (n.fieldText .operator))
  | .update => some "number"
  | .assignment => inferField infer resolving n .right
  | .sequence =>
    match n.named.getLast? with
    | some e => infer resolving e
    | none => some any
  | .functionDeclaration | .generatorDeclaration | .functionExpression | .generatorExpression
  | .arrowFunction | .methodDefinition => functionType infer resolving n
  | .construction => some (constructedType n)
  | .call => callType infer resolving scope n
  | .member => memberType infer resolving scope n
  | .subscript => (inferField infer resolving n .object).map elementOf
  | _ => some any

end

/-- The type of an expression; none if it takes more than `limit` types inside each other. -/
def infer (scope : Scope) : Nat → Infer
  | 0, _, _ => none
  | limit + 1, resolving, n => typeOf (infer scope limit) resolving scope n

/-- How many types are inferred inside each other before a type is too deep to be shown. -/
def depthLimit : Nat := 500

/-- The type of a name in a scope. -/
def Scope.typeOfName (scope : Scope) (limit : Nat) (name : String) : Option String :=
  resolve (infer scope limit) [] scope name

/-- The type of an expression in a scope. -/
def Scope.typeOf (scope : Scope) (limit : Nat) (e : Node) : Option String :=
  infer scope limit [] e

/-- The type of a function in a scope. -/
def Scope.typeOfFunction (scope : Scope) (limit : Nat) (f : Node) : Option String :=
  functionType (infer scope limit) [] f

/-- The type of what a function returns in a scope. -/
def Scope.returnType (scope : Scope) (limit : Nat) (f : Node) : Option String :=
  Typing.returnType (infer scope limit) [] f

end RouteAtlas.Typing
