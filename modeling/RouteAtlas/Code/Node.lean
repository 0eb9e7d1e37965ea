/-
  RouteAtlas: the concrete tree of a module.

  A node has a kind, the role it plays in its parent, the span it covers, the text it was read
  from and its children in source order.  Comments are nodes like any other, wherever they stand;
  of the punctuation and the keywords only those that carry meaning are kept, as `token` nodes.

  * `Node.named` are the children that are no tokens, `Node.field?` is the child in a given role;
  * `Node.unwrap` strips parentheses, `satisfies` and non-null marks from an expression;
  * `Node.size` counts nodes; a child is smaller than its parent (`size_lt_of_mem`).
-/
namespace RouteAtlas.Code

/-! ## Kinds, roles and spans -/

/-- What a node is.  Constructs that no rule of the library looks at are `construct`. -/
inductive Kind where
  /-- A keyword or an operator that carries meaning. -/
  | token
  | comment
  | program
  | block
  | exportStatement
  | exportClause
  | exportSpecifier
  | variableDeclaration
  | declarator
  | functionDeclaration
  | generatorDeclaration
  /-- A function declaration without a body. -/
  | functionSignature
  | classDeclaration
  | classBody
  | returnStatement
  | functionExpression
  | generatorExpression
  | arrowFunction
  | methodDefinition
  | parameters
  | requiredParameter
  | optionalParameter
  | writtenType
  | typeArguments
  /-- A whole type, not taken apart. -/
  | typeText
  | identifier
  | objectPattern
  | arrayPattern
  | shorthandPattern
  | pairPattern
  | defaultPattern
  | string
  | template
  | templateText
  | number
  | boolean
  | null
  | undefined
  | regex
  | object
  | pair
  | shorthand
  | propertyName
  | computedName
  | spread
  | array
  | parenthesized
  | satisfies
  | nonNull
  | asExpression
  | assertion
  | await
  | ternary
  | binary
  | unary
  | update
  | assignment
  | sequence
  | call
  | arguments
  | construction
  | member
  | subscript
  /-- Any other construct. -/
  | construct
  deriving DecidableEq, Repr, Inhabited

/-- The part that a node plays in its parent. -/
inductive Role where
  | name
  | newName
  | declaration
  | source
  | body
  | parameter
  | parameters
  | returnType
  | type
  | pattern
  | value
  | key
  | left
  | right
  | operator
  | consequence
  | alternative
  | object
  | property
  | callee
  | arguments
  | constructor
  | typeArguments
  deriving DecidableEq, Repr

/-- A place in a source text: the offset in bytes and the line, counted from one. -/
structure Position where
  offset : Nat
  line : Nat
  deriving DecidableEq, Repr, Inhabited

/-- What a node covers: from the start of its first token to the end of its last one. -/
structure Span where
  start : Position
  stop : Position
  deriving DecidableEq, Repr, Inhabited

/-- The functions and methods: nodes with parameters and a body of their own. -/
def Kind.isFunction : Kind → Bool
  | functionDeclaration | generatorDeclaration | functionExpression | generatorExpression
  | arrowFunction | methodDefinition => true
  | _ => false

/-- The function values: what a variable can be initialized with to become a function. -/
def Kind.isFunctionValue : Kind → Bool
  | functionExpression | generatorExpression | arrowFunction => true
  | _ => false

/-- The wrappers that leave the type of an expression as it is. -/
def Kind.isWrapper : Kind → Bool
  | parenthesized | satisfies | nonNull => true
  | _ => false

/-! ## Nodes -/

/-- A node of the tree of a module. -/
inductive Node where
  | mk (kind : Kind) (role : Option Role) (span : Span) (text : String) (children : List Node)
  deriving Inhabited

namespace Node

/-- What the node is. -/
def kind : Node → Kind
  | mk kind _ _ _ _ => kind

/-- The part that the node plays in its parent, if it has one. -/
def role : Node → Option Role
  | mk _ role _ _ _ => role

/-- What the node covers. -/
def span : Node → Span
  | mk _ _ span _ _ => span

/-- The source text of the node. -/
def text : Node → String
  | mk _ _ _ text _ => text

/-- The children of the node in source order. -/
def children : Node → List Node
  | mk _ _ _ _ children => children

/-- The node in a given role. -/
def withRole (role : Role) : Node → Node
  | mk kind _ span text children => mk kind (some role) span text children

/-- The line of the node's first character. -/
def startLine (n : Node) : Nat :=
  n.span.start.line

/-- The line of the node's last character. -/
def endLine (n : Node) : Nat :=
  n.span.stop.line

/-- Every node but a token is named. -/
def isNamed (n : Node) : Bool :=
  n.kind != .token

/-- Whether the node is a comment. -/
def isComment (n : Node) : Bool :=
  n.kind == .comment

/-- The children that are no tokens; comments are among them. -/
def named (n : Node) : List Node :=
  n.children.filter isNamed

/-- The named children that are no comments. -/
def operands (n : Node) : List Node :=
  n.named.filter fun c => !c.isComment

/-- The first child in a role. -/
def field? (n : Node) (role : Role) : Option Node :=
  n.children.find? fun c => c.role == some role

/-- The text of the first child in a role, empty if there is none. -/
def fieldText (n : Node) (role : Role) : String :=
  ((n.field? role).map text).getD ""

/-- Whether one of the children is the given token. -/
def hasToken (n : Node) (token : String) : Bool :=
  n.children.any fun c => c.kind == .token && c.text == token

/-! ## Size -/

mutual
/-- The number of nodes of a tree. -/
def size : Node → Nat
  | mk _ _ _ _ children => sizes children + 1
/-- The number of nodes of several trees. -/
def sizes : List Node → Nat
  | [] => 0
  | n :: ns => size n + sizes ns
end

theorem size_eq (n : Node) : n.size = sizes n.children + 1 := by
  cases n; simp [size, children]

theorem sizes_append (ms ns : List Node) : sizes (ms ++ ns) = sizes ms + sizes ns := by
  induction ms with
  | nil => simp [sizes]
  | cons m ms ih => simp [sizes, ih, Nat.add_assoc]

theorem size_le_sizes {n : Node} {ns : List Node} (h : n ∈ ns) : n.size ≤ sizes ns := by
  induction ns with
  | nil => cases h
  | cons m ms ih =>
    rcases List.mem_cons.mp h with rfl | h
    · simp [sizes]
    · exact Nat.le_trans (ih h) (by simp [sizes])

theorem size_lt_of_mem {c n : Node} (h : c ∈ n.children) : c.size < n.size := by
  have := size_le_sizes h
  rw [size_eq n]; omega

theorem mem_children_of_mem_named {c n : Node} (h : c ∈ n.named) : c ∈ n.children :=
  (List.mem_filter.mp h).1

theorem mem_children_of_field? {c n : Node} {role : Role} (h : n.field? role = some c) :
    c ∈ n.children :=
  List.mem_of_find?_eq_some h

/-! ## Wrappers -/

/-- The expression inside parentheses, `satisfies` and non-null marks.  The operand of a wrapper
    is its first named child. -/
def unwrap (n : Node) : Node :=
  if n.kind.isWrapper then
    match _h : n.named with
    | [] => n
    | c :: _ => unwrap c
  else n
termination_by n.size
decreasing_by
  exact size_lt_of_mem (mem_children_of_mem_named (by rw [_h]; exact List.mem_cons_self ..))

end Node

end RouteAtlas.Code
