/-
  RouteAtlas: the declarations that a module exports.

  A name is exported with its declaration or by a clause.  A declaration is a function, declared as
  such or the initial value of a variable, or something else that cannot handle a request.

  * `declared` are the names that a statement declares;
  * `exports` lists the exported names with their declarations, in the order in which they are met:
    first those exported with their declaration, then those of clauses;
  * `implementation?` is the first function with a body.
-/
import RouteAtlas.Typing.Scope

namespace RouteAtlas.Handler

open RouteAtlas.Code RouteAtlas.Typing

/-- What a declaration is that is no function with its parameters. -/
inductive OtherKind where
  | variable_
  /-- A function without a body. -/
  | overload
  | class_
  deriving DecidableEq, Repr

/-- The word for a declaration that is no function. -/
def OtherKind.word : OtherKind → String
  | variable_ => "variable"
  | overload => "overload"
  | class_ => "class"

/-- A function that is declared, or that a variable starts with. -/
structure FunctionDeclaration where
  name : String
  /-- The declaration of the function or of the variable. -/
  node : Node
  /-- The function itself, with its parameters and its body. -/
  function : Node
  /-- The statement of the module that declares it. -/
  statement : Node
  /-- The type that the variable is declared with. -/
  writtenType : Option String

/-- What declares a name. -/
inductive Declaration where
  | function (declaration : FunctionDeclaration)
  | other (name : String) (node : Node) (kind : OtherKind)

/-- The line on which the declaring statement starts. -/
def FunctionDeclaration.startLine (d : FunctionDeclaration) : Nat :=
  d.statement.startLine

/-- Whether the function has a body. -/
def FunctionDeclaration.hasBody (d : FunctionDeclaration) : Bool :=
  (d.function.field? .body).isSome

/-! ## Names that a statement declares -/

/-- The initial value of a variable without wrappers, nor one `as` with the wrappers inside it. -/
def initialValue? (declarator : Node) : Option Node :=
  (declarator.field? .value).map fun value =>
    let v := value.unwrap
    if v.kind == .asExpression then
      match v.named with
      | e :: _ => e.unwrap
      | [] => v
    else v

/-- What a declared variable is. -/
def declaredVariable (name : String) (declarator statement : Node) : Declaration :=
  match initialValue? declarator with
  | some value =>
    if value.kind.isFunctionValue then
      .function
        { name, node := declarator, function := value, statement
          writtenType := typeTextOf (declarator.field? .type) }
    else .other name declarator .variable_
  | none => .other name declarator .variable_

/-- The variable that a part of a declaration declares, if it is a plain name. -/
def declaredBy (statement part : Node) : Option (String × Declaration) :=
  if part.kind == .declarator then
    match part.field? .name with
    | some name =>
      if name.kind == .identifier then some (name.text, declaredVariable name.text part statement)
      else none
    | none => none
  else none

/-- The names that a declaration declares; `statement` is the statement that it stands in. -/
def declared (declaration statement : Node) : List (String × Declaration) :=
  let name := declaration.fieldText .name
  match declaration.kind with
  | .functionDeclaration | .generatorDeclaration =>
    [(name, .function
      { name, node := declaration, function := declaration, statement, writtenType := none })]
  | .functionSignature => [(name, .other name declaration .overload)]
  | .variableDeclaration => declaration.named.filterMap (declaredBy statement)
  | .classDeclaration => [(name, .other name declaration .class_)]
  | _ => []

/-! ## Exports -/

/-- Names with their declarations. -/
abbrev Declarations := List (String × List Declaration)

/-- Adds declarations of a name behind those it has; a new name comes last. -/
def Declarations.add (ds : Declarations) (name : String) (more : List Declaration) :
    Declarations :=
  match ds with
  | [] => [(name, more)]
  | (n, old) :: rest =>
    if n == name then (n, old ++ more) :: rest else (n, old) :: Declarations.add rest name more

/-- The declarations of a name. -/
def Declarations.of (ds : Declarations) (name : String) : List Declaration :=
  (ds.lookup name).getD []

/-- Whether a statement exports something under the default name. -/
def isDefaultExport (statement : Node) : Bool :=
  statement.kind == .exportStatement && statement.hasToken "default"

/-- The names that a statement of a module exports with their declarations. -/
def exportedWithDeclaration (statement : Node) : List (String × Declaration) :=
  if statement.kind == .exportStatement && !isDefaultExport statement then
    match statement.field? .declaration with
    | some d => declared d statement
    | none => []
  else []

/-- The names that a statement of a module declares; default exports declare none. -/
def declaredLocally (statement : Node) : List (String × Declaration) :=
  if statement.kind == .exportStatement then exportedWithDeclaration statement
  else declared statement statement

/-- The clauses of a statement that exports names of its own module. -/
def localClauses (statement : Node) : List Node :=
  if statement.kind == .exportStatement && !isDefaultExport statement &&
      (statement.field? .declaration).isNone && (statement.field? .source).isNone then
    statement.named.filter fun c => c.kind == .exportClause
  else []

/-- The names that a clause exports: what each is called here, and what it is exported as. -/
def clauseNames (clause : Node) : List (String × String) :=
  (clause.named.filter fun c => c.kind == .exportSpecifier).map fun c =>
    let name := c.fieldText .name
    (name, ((c.field? .newName).map Node.text).getD name)

/-- Names with single declarations, put together by name. -/
def gathered (names : List (String × Declaration)) : Declarations :=
  names.foldl (fun ds entry => ds.add entry.1 [entry.2]) []

/-- The exported names of a module with their declarations. -/
def exports (root : Node) : Declarations :=
  let locals := gathered (root.named.flatMap declaredLocally)
  let direct := gathered (root.named.flatMap exportedWithDeclaration)
  let clauses := (root.named.flatMap localClauses).flatMap clauseNames
  clauses.foldl (fun ds entry => ds.add entry.2 (locals.of entry.1)) direct

/-- The first function with a body. -/
def implementation? : List Declaration → Option FunctionDeclaration
  | [] => none
  | .function d :: rest => if d.hasBody then some d else implementation? rest
  | .other .. :: rest => implementation? rest

end RouteAtlas.Handler
