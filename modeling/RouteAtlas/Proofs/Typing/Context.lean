/-
  RouteAtlas: the types of expressions, over shared marks.

  The rules of inference again, as work on one context that they all share: what is being resolved is
  marked in it, and the mark is taken out again when the work is over, whether it gave a type or raised
  an error.  The context notes every call of a rule with the calls around it.

  * `Frame` is a call in progress, `Chain` are calls inside each other;
  * `calling` makes a call, `marked` marks what is being resolved;
  * `perform` makes any call, and `answer` is the type that the rules of `infer` give it; the contexts
    that are `Reached` are those that calls from outside leave.
-/
import RouteAtlas.Typing.Inference

namespace RouteAtlas.Typing

open RouteAtlas.Code RouteAtlas.Text

/-! ## Calls and contexts -/

/-- A call of a rule. -/
inductive Call where
  | infer (e : Node)
  | resolve (name : String)
  | functionType (f : Node)
  | returnType (f : Node)
  | callType (n : Node)
  | memberType (n : Node)

/-- A call in progress, with what was being resolved when it began. -/
structure Frame where
  call : Call
  resolving : List String

/-- Calls inside each other, the innermost first. -/
abbrev Chain := List Frame

/-- What the rules share: what is being resolved, and the chain of every call so far, the last
    first. -/
structure Context where
  resolving : List String := []
  chains : List Chain := []

/-- Work on a context, which can raise an error. -/
abbrev Work := OptionT (StateM Context)

/-- The calls that raise an error of their own: as they begin, or as they end. -/
structure Faults where
  entering : Chain → Bool := fun _ => false
  leaving : Chain → Bool := fun _ => false

/-- What work gives in a context, and the context it leaves. -/
def Work.on {α : Type} (work : Work α) (context : Context) : Option α × Context :=
  work.run.run context

namespace Context

/-! ## Steps -/

section
variable {α : Type} (faults : Faults) (chain : Chain) (key : String)

/-- Makes a call inside a chain. -/
def calling (call : Call) (rule : Chain → Work String) : Work String := do
  let context ← get
  let nested := ⟨call, context.resolving⟩ :: chain
  set { context with chains := nested :: context.chains }
  if faults.entering nested then failure
  let type ← rule nested
  if faults.leaving nested then failure
  return type

/-- Whether something is being resolved. -/
def isMarked : Work Bool :=
  return (← get).resolving.contains key

/-- Work while something is being resolved, until it gives something or raises an error. -/
def marked (work : Work α) : Work α := OptionT.mk do
  modify fun context => { context with resolving := key :: context.resolving }
  let result ← work.run
  modify fun context => { context with resolving := context.resolving.erase key }
  return result

end

/-! ## Rules -/

section
variable (infer : Chain → Node → Work String) (faults : Faults) (chain : Chain)

/-- The type of the child in a role. -/
def inferField (n : Node) (role : Role) : Work String :=
  match n.field? role with
  | some c => infer chain c
  | none => return any

/-- The type of the first named child. -/
def inferFirst (n : Node) : Work String :=
  match n.named.head? with
  | some c => infer chain c
  | none => return any

/-- The type of what a return statement returns. -/
def returnedType (statement : Node) : Work String :=
  match statement.named.head? with
  | some e => infer chain e
  | none => return "undefined"

/-- The type of what the body of a function gives. -/
def bodyType (f : Node) : Work String :=
  match f.field? .body with
  | none => return "void"
  | some body =>
    if body.kind != .block then infer chain body
    else
      match f.ownReturns with
      | [] => return "void"
      | returns => return union (← returns.mapM (returnedType infer chain))

/-- The type of what a function returns. -/
def returnType (f : Node) : Work String :=
  calling faults chain (.returnType f) fun nested =>
    match typeTextOf (f.field? .returnType) with
    | some type => return type
    | none => return (fun t => if isAsync f then promiseOf t else t) (← bodyType infer nested f)

/-- The type of a function. -/
def functionType (f : Node) : Work String :=
  calling faults chain (.functionType f) fun nested =>
    return "(" ++ parametersText f ++ ") => " ++ (← returnType infer faults nested f)

variable (scope : Scope)

/-- The type of a name. -/
def resolve (name : String) : Work String :=
  calling faults chain (.resolve name) fun nested => do
    if ← isMarked name then return any
    else
      match scope.find? name with
      | some (.annotated type) => return type
      | some (.member type key) => return memberOf type key
      | some (.value e) => marked name (infer nested e)
      | some (.function f) => marked name (functionType infer faults nested f)
      | some .untyped | none => return any

/-- The members of the type of an object that one of its members gives: at most one. -/
def objectMembers (m : Node) : Work (List String) :=
  match m.kind with
  | .pair =>
    match propertyKey? (m.field? .key) with
    | none => return []
    | some key => return [memberText key (← inferField infer chain m .value)]
  | .shorthand => return [memberText m.text (← resolve infer faults chain scope m.text)]
  | .methodDefinition =>
    match propertyKey? (m.field? .name) with
    | none => return []
    | some key => return [memberText key (← functionType infer faults chain m)]
  | _ => return []

/-- The type of an object. -/
def objectType (n : Node) : Work String :=
  return objectText (← n.named.mapM (objectMembers infer faults chain scope)).flatten

/-- The type of an array. -/
def arrayType (n : Node) : Work String :=
  match elements n with
  | [] => return arrayOf any
  | es => return arrayOf (union (← es.mapM (infer chain)))

/-- The type of two operands with an operator between them. -/
def binaryType (n : Node) : Work String :=
  let op := n.fieldText .operator
  if comparisons.contains op then return "boolean"
  else do
    let left ← inferField infer chain n .left
    return operatorType op left (← inferField infer chain n .right)

/-- The type of a call of a name. -/
def namedCallType (name : String) : Work String :=
  match scope.find? name with
  | none => return (knownCalls.lookup name).getD any
  | some _ =>
    match scope.callable? name with
    | none => return any
    | some f => do
      if ← isMarked name then return any
      else marked name (returnType infer faults chain f)

/-- The type of a call. -/
def callType (n : Node) : Work String :=
  calling faults chain (.callType n) fun nested =>
    match (n.field? .callee).map Node.unwrap with
    | none => return any
    | some callee =>
      match callee.kind with
      | .identifier => namedCallType infer faults nested scope callee.text
      | .member => return memberCallType (squeeze callee.text) (callee.fieldText .property)
      | _ => return any

/-- The type of a member of an object that is written down. -/
def literalMember (key : String) : List Node → Work String
  | [] => return any
  | m :: ms =>
    if m.kind == .pair && propertyKey? (m.field? .key) == some key then
      inferField infer chain m .value
    else if m.kind == .shorthand && m.text == key then resolve infer faults chain scope key
    else literalMember key ms

/-- The type of a member of an object that is no name. -/
def plainMemberType (object : Node) (key : String) : Work String :=
  if object.kind == .object then literalMember infer faults chain scope key object.named
  else return namedMember (← infer chain object) key

/-- The type of a member of a name. -/
def nameMemberType (name : Node) (key : String) : Work String :=
  let path := name.text ++ "." ++ key
  match scope.value? name.text with
  | some e =>
    if e.kind == .object then do
      if ← isMarked path then return any
      else marked path (literalMember infer faults chain scope key e.named)
    else return namedMember (← infer chain name) key
  | none => return namedMember (← infer chain name) key

/-- The type of a member. -/
def memberType (n : Node) : Work String :=
  calling faults chain (.memberType n) fun nested =>
    let key := n.fieldText .property
    if key == "length" then return "number"
    else
      match (n.field? .object).map Node.unwrap with
      | none => return any
      | some object =>
        if object.kind == .identifier then nameMemberType infer faults nested scope object key
        else plainMemberType infer faults nested scope object key

/-- The type of a name in an expression. -/
def nameType (name : String) : Work String :=
  if name == "undefined" then return "undefined"
  else if name == "NaN" || name == "Infinity" then return "number"
  else resolve infer faults chain scope name

/-- The type behind `as`, or that of the operand if it is only made constant. -/
def assertedType (n : Node) : Work String :=
  match n.named with
  | _ :: rest@(_ :: _) => return (rest.getLast?.map fun type => collapse type.text).getD any
  | _ => inferFirst infer chain n

/-- The type of an expression, over the types of the expressions inside it. -/
def typeOf (n : Node) : Work String :=
  match n.kind with
  | .string | .template => return "string"
  | .number => return if endsWith "n" n.text then "bigint" else "number"
  | .boolean => return "boolean"
  | .null => return "null"
  | .undefined => return "undefined"
  | .regex => return "RegExp"
  | .identifier => nameType infer faults chain scope n.text
  | .object => objectType infer faults chain scope n
  | .array => arrayType infer chain n
  | .parenthesized | .satisfies | .nonNull => inferFirst infer chain n
  | .asExpression => assertedType infer chain n
  | .assertion => return bracketedType n
  | .await => return awaited (← inferFirst infer chain n)
  | .ternary => do
    let yes ← inferField infer chain n .consequence
    return union [yes, ← inferField infer chain n .alternative]
  | .binary => binaryType infer chain n
  | .unary => return unaryType (n.fieldText .operator)
  | .update => return "number"
  | .assignment => inferField infer chain n .right
  | .sequence =>
    match n.named.getLast? with
    | some e => infer chain e
    | none => return any
  | .functionDeclaration | .generatorDeclaration | .functionExpression | .generatorExpression
  | .arrowFunction | .methodDefinition => functionType infer faults chain n
  | .construction => return constructedType n
  | .call => callType infer faults chain scope n
  | .member => memberType infer faults chain scope n
  | .subscript => return elementOf (← inferField infer chain n .object)
  | _ => return any

end

/-- The type of an expression; an error if it takes more than `limit` types inside each other. -/
def infer (faults : Faults) (scope : Scope) : Nat → Chain → Node → Work String
  | 0, chain, n => calling faults chain (.infer n) fun _ => failure
  | limit + 1, chain, n => calling faults chain (.infer n) fun nested =>
    typeOf (infer faults scope limit) faults nested scope n

/-! ## Calls -/

/-- Makes a call inside a chain. -/
def perform (faults : Faults) (scope : Scope) (limit : Nat) (chain : Chain) (call : Call) :
    Work String :=
  let infer := infer faults scope limit
  match call with
  | .infer e => infer chain e
  | .resolve name => resolve infer faults chain scope name
  | .functionType f => functionType infer faults chain f
  | .returnType f => returnType infer faults chain f
  | .callType n => callType infer faults chain scope n
  | .memberType n => memberType infer faults chain scope n

/-- The type that a call is for, while something is being resolved. -/
def answer (scope : Scope) (limit : Nat) (resolving : List String) (call : Call) : Option String :=
  let infer := Typing.infer scope limit
  match call with
  | .infer e => infer resolving e
  | .resolve name => Typing.resolve infer resolving scope name
  | .functionType f => Typing.functionType infer resolving f
  | .returnType f => Typing.returnType infer resolving f
  | .callType n => Typing.callType infer resolving scope n
  | .memberType n => Typing.memberType infer resolving scope n

/-- The contexts that calls from outside leave, one after the other, whether they give a type or raise
    an error. -/
inductive Reached (scope : Scope) : Context → Prop
  | fresh : Reached scope {}
  | after {context : Context} (faults : Faults) (limit : Nat) (call : Call) : Reached scope context →
      Reached scope ((perform faults scope limit [] call).on context).2

end Context

end RouteAtlas.Typing
