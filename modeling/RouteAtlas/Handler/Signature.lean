/-
  RouteAtlas: what a handler takes and gives.

  * `responseType` is the type of what a handler responds with: the arguments of the response
    helpers in its return statements;
  * `queryParameters` are the names that a handler asks the query for;
  * `declaredType` is the type of the handler itself.
-/
import RouteAtlas.Handler.Declaration
import RouteAtlas.Typing.Inference

namespace RouteAtlas.Handler

open RouteAtlas.Code RouteAtlas.Text RouteAtlas.Typing

/-- The arguments of a call that are no comments. -/
def callArguments (call : Node) : List Node :=
  match call.field? .arguments with
  | some args => args.operands
  | none => []

/-! ## Responses -/

/-- Whether a node is a call of one of the helpers by its bare name. -/
def isHelperCall (helpers : List String) (n : Node) : Bool :=
  n.kind == .call &&
    match n.field? .callee with
    | some callee => callee.kind == .identifier && helpers.contains callee.text
    | none => false

/-- What a return statement responds with: the first argument of the first helper call in it. -/
def responseOf? (helpers : List String) (statement : Node) : Option Node :=
  (statement.descendants.find? (isHelperCall helpers)).bind fun call => (callArguments call).head?

/-- What the return statements below a declaration respond with. -/
def responses (helpers : List String) (d : FunctionDeclaration) : List Node :=
  (d.node.descendantsOf .returnStatement).filterMap (responseOf? helpers)

/-- The type that a handler responds with: the distinct types of its responses, and none if it has
    no response.  The whole is none where a type nests too deep. -/
def responseType (scope : Scope) (limit : Nat) (helpers : List String) (d : FunctionDeclaration) :
    Option (Option String) :=
  match responses helpers d with
  | [] => some none
  | es => (es.mapM (scope.typeOf limit)).map fun types => some (joined types)

/-! ## Queries -/

/-- An accessor as calls are compared with it. -/
def plainAccessor (accessor : String) : String :=
  .ofList (accessor.toList.filter fun c => c != ' ')

/-- The name that a call asks the query for, if it calls an accessor with an argument. -/
def queryName? (accessors : List String) (call : Node) : Option String :=
  match call.field? .callee with
  | none => none
  | some callee =>
    if (accessors.map plainAccessor).contains (squeeze callee.text) then
      (callArguments call).head?.map fun arg => strip ['\'', '"', '\x60'] arg.text
    else none

/-- The names that a handler asks the query for, in source order. -/
def queryParameters (accessors : List String) (d : FunctionDeclaration) : List String :=
  (d.node.descendantsOf .call).filterMap (queryName? accessors)

/-! ## The type of a handler -/

/-- The type of a handler: the one it is declared with, or that of its function; none where the type
    nests too deep. -/
def declaredType (scope : Scope) (limit : Nat) (d : FunctionDeclaration) : Option String :=
  match d.writtenType with
  | some type => if type.isEmpty then scope.typeOfFunction limit d.function else some type
  | none => scope.typeOfFunction limit d.function

end RouteAtlas.Handler
