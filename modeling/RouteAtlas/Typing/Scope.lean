/-
  RouteAtlas: the names that a handler sees.

  A scope is a list of names with what is known of them; the first entry of a name counts.  The
  names of a handler stand before those of its module.

  * `Scope.of` collects the names of a module and, before them, of a function in it;
  * `Scope.find?` looks a name up;
  * `Scope.value?` and `Scope.callable?` are the expression and the function behind a name.
-/
import RouteAtlas.Code.Walk
import RouteAtlas.Typing.TypeText

namespace RouteAtlas.Typing

open RouteAtlas.Code RouteAtlas.Text

/-- What is known of a name. -/
inductive Binding where
  /-- Its type is written down. -/
  | annotated (type : String)
  /-- It is a member of something whose type is written down. -/
  | member (type key : String)
  /-- It has an initial value. -/
  | value (expression : Node)
  | function (declaration : Node)
  /-- Nothing. -/
  | untyped

/-- Names with what is known of them. -/
abbrev Scope := List (String × Binding)

/-! ## Patterns -/

/-- The text of a type behind a colon. -/
def typeTextOf (writtenType : Option Node) : Option String :=
  writtenType.bind fun a => a.named.head?.map fun type => collapse type.text

/-- The binding of a member of something with a type, if it has one. -/
def memberBinding (type : Option String) (key : String) : Binding :=
  match type with
  | some t => .member t key
  | none => .untyped

/-- The binding of a plain name with a type, if it has one. -/
def plainBinding (type : Option String) : Binding :=
  match type with
  | some t => .annotated t
  | none => .untyped

/-- The names that a member of an object pattern binds. -/
def memberBindings (type : Option String) (m : Node) : Scope :=
  match m.kind with
  | .shorthandPattern => [(m.text, memberBinding type m.text)]
  | .pairPattern =>
    match m.field? .value with
    | some v =>
      if v.kind == .identifier then
        [(v.text, memberBinding type (strip ['\'', '"'] (m.fieldText .key)))]
      else []
    | none => []
  | .defaultPattern =>
    match m.field? .left with
    | some l => [(l.text, memberBinding type l.text)]
    | none => []
  | _ => []

/-- The names that a pattern binds: a name, or the plain members of an object pattern. -/
def patternBindings (pattern : Option Node) (type : Option String) : Scope :=
  match pattern with
  | none => []
  | some p =>
    if p.kind == .identifier then [(p.text, plainBinding type)]
    else if p.kind == .objectPattern then p.named.flatMap (memberBindings type)
    else []

/-! ## Declarations and parameters -/

/-- The names that a declared variable binds. -/
def declaratorBindings (d : Node) : Scope :=
  let type := typeTextOf (d.field? .type)
  match d.field? .name with
  | none => []
  | some name =>
    if name.kind == .identifier then
      match type, d.field? .value with
      | some t, _ => [(name.text, .annotated t)]
      | none, some v => [(name.text, .value v)]
      | none, none => [(name.text, .untyped)]
    else patternBindings (some name) type

/-- The names that the parameters of a function bind. -/
def parameterBindings (f : Node) : Scope :=
  match f.field? .parameter with
  | some p => [(p.text, .untyped)]
  | none =>
    match f.field? .parameters with
    | none => []
    | some ps =>
      ps.named.flatMap fun p =>
        if p.kind == .requiredParameter || p.kind == .optionalParameter then
          patternBindings (p.field? .pattern) (typeTextOf (p.field? .type))
        else []

/-- Whether a node declares a function with a body. -/
def isFunctionDeclaration (n : Node) : Bool :=
  n.kind == .functionDeclaration || n.kind == .generatorDeclaration

/-- The names that a statement of a module binds. -/
def statementBindings (s : Node) : Scope :=
  if s.kind == .variableDeclaration then
    s.named.flatMap fun d => if d.kind == .declarator then declaratorBindings d else []
  else if isFunctionDeclaration s then [(s.fieldText .name, .function s)]
  else []

/-- The names that a module binds, those it exports included. -/
def moduleBindings (root : Node) : Scope :=
  root.named.flatMap fun s =>
    if s.kind == .exportStatement then
      match s.field? .declaration with
      | some d => statementBindings d
      | none => []
    else statementBindings s

/-- The names that a node inside a function binds. -/
def innerBindings (n : Node) : Scope :=
  if n.kind == .declarator then declaratorBindings n
  else if isFunctionDeclaration n then [(n.fieldText .name, .function n)]
  else if n.kind.isFunction then parameterBindings n
  else []

/-- The names that a function binds, at any depth. -/
def functionBindings (f : Node) : Scope :=
  parameterBindings f ++ f.descendants.flatMap innerBindings

/-! ## Scopes -/

/-- The names that are seen in a function of a module, or in the module alone. -/
def Scope.of (root : Node) (function : Option Node) : Scope :=
  let local_ := match function with
    | some f => functionBindings f
    | none => []
  (local_ ++ moduleBindings root).filter fun entry => !entry.1.isEmpty

/-- What is known of a name. -/
def Scope.find? (scope : Scope) (name : String) : Option Binding :=
  scope.lookup name

/-- The expression that a name stands for, without wrappers. -/
def Scope.value? (scope : Scope) (name : String) : Option Node :=
  match scope.find? name with
  | some (.value e) => some e.unwrap
  | _ => none

/-- The function that a name stands for. -/
def Scope.callable? (scope : Scope) (name : String) : Option Node :=
  match scope.find? name with
  | some (.function f) => some f
  | some (.value e) => if e.unwrap.kind.isFunction then some e.unwrap else none
  | _ => none

end RouteAtlas.Typing
