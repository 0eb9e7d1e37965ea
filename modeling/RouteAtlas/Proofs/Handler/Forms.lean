/-
  RouteAtlas: ways to write a handler.

  A handler is declared as a function, or is the value of a constant: a function expression or an arrow
  function.  All forms have the same parts.

  * `Parts` are what the forms share; `Parts.function name form` is the function, `Parts.statement` the
    statement that exports it, and `Parts.handler` the handler that the statement declares;
  * `field?_function`, `responses_handler`, `queryParameters_handler` and `functionBindings_function` read
    the forms: what is read is the same in all of them;
  * `Parts.statementsMatch`: statements that export two handlers under a name match;
  * `areTwins_forms` and `handlesAlike_forms`: the functions of two forms are twins, and the handlers are
    handled alike.
-/
import RouteAtlas.Proofs.Handler.Matching

namespace RouteAtlas.Handler

open RouteAtlas.Code RouteAtlas.Typing

/-! ## Below nodes -/

/-- The nodes of a kind below some nodes. -/
def below (kind : Kind) (ns : List Node) : List Node :=
  (Node.preorders ns).filter fun c => c.kind == kind

/-- What the return statements below some nodes respond with. -/
def responsesIn (helpers : List String) (ns : List Node) : List Node :=
  (below .returnStatement ns).filterMap (responseOf? helpers)

theorem below_cons (kind : Kind) (n : Node) (ns : List Node) :
    below kind (n :: ns) = below kind [n] ++ below kind ns := by
  unfold below
  rw [← List.filter_append, ← Node.preorders_append]
  rfl

theorem below_of_ne {kind : Kind} {n : Node} (h : n.kind ≠ kind) : below kind [n] = below kind n.children := by
  unfold below
  rw [Node.preorders, Node.preorders, List.append_nil, Node.preorder_eq,
    List.filter_cons_of_neg (by simpa using h)]
  rfl

/-- What is read of the nodes of a kind below several nodes is read below one after the other. -/
theorem filterMap_below_cons {β : Type} (kind : Kind) (read : Node → Option β) (n : Node)
    (ns : List Node) : (below kind (n :: ns)).filterMap read =
      (below kind [n]).filterMap read ++ (below kind ns).filterMap read := by
  rw [below_cons, List.filterMap_append]

/-- What is read of the nodes of a kind in a tree is read of its root first. -/
theorem filterMap_below_single {β : Type} (kind : Kind) (read : Node → Option β) (n : Node) :
    (below kind [n]).filterMap read =
      (if n.kind = kind then (read n).toList else []) ++ (below kind n.children).filterMap read := by
  by_cases h : n.kind = kind
  · have hbelow : below kind [n] = n :: below kind n.children := by
      unfold below
      rw [Node.preorders, Node.preorders, List.append_nil, Node.preorder_eq,
        List.filter_cons_of_pos (by simpa using h)]
      rfl
    rw [if_pos h, hbelow, List.filterMap_cons]
    cases read n <;> rfl
  · rw [if_neg h, below_of_ne h, List.nil_append]

/-! ## Parts and forms -/

/-- What the forms of a handler share: whether it is asynchronous, what stands between its name and its
    body, and the body. -/
structure Parts where
  isAsync : Bool
  signature : List Node
  body : Node
  signature_role : ∀ n ∈ signature, n.role ≠ some .name ∧ n.role ≠ some .body
  body_role : body.role = some .body

/-- How a handler is written. -/
inductive Form where
  /-- As a declared function. -/
  | declaration
  /-- As a constant that is a function expression, which can have a name of its own. -/
  | expression (own : Option String)
  /-- As a constant that is an arrow function. -/
  | arrow
  deriving DecidableEq, Repr

/-- The name in a declaration. -/
def nameNode (name : String) : Node :=
  .planted .identifier (some .name) name []

/-- The kind of the function in a form. -/
def Form.kind : Form → Kind
  | declaration => .functionDeclaration
  | expression _ => .functionExpression
  | arrow => .arrowFunction

/-- The part that the function of a form plays. -/
def Form.role : Form → Role
  | declaration => .declaration
  | expression _ | arrow => .value

/-- The name in a function: a declared one has the name of the handler. -/
def Form.names (name : String) : Form → List Node
  | declaration => [nameNode name]
  | expression own => own.toList.map nameNode
  | arrow => []

/-- There is one name in a function at most. -/
theorem Form.names_cases (name : String) (form : Form) :
    form.names name = [] ∨ ∃ own, form.names name = [nameNode own] := by
  cases form with
  | declaration => exact .inr ⟨name, rfl⟩
  | expression own =>
    cases own with
    | none => exact .inl rfl
    | some own => exact .inr ⟨own, rfl⟩
  | arrow => exact .inl rfl

namespace Parts

variable (p : Parts) (name : String) (form form' : Form)

/-- The words in front of the function. -/
def front : List Node :=
  if p.isAsync then [.planted .token none "async" []] else []

/-- The function in a form. -/
def function : Node :=
  .planted form.kind (some form.role) "" (p.front ++ form.names name ++ (p.signature ++ [p.body]))

/-- The node that declares the handler: the function itself, or the declarator of the constant. -/
def declaring : Node :=
  match form with
  | .declaration => p.function name form
  | _ => .planted .declarator none "" [nameNode name, p.function name form]

/-- The declaration in the statement. -/
def declared : Node :=
  match form with
  | .declaration => p.function name form
  | _ => .planted .variableDeclaration (some .declaration) "" [p.declaring name form]

/-- The statement that exports the handler. -/
def statement : Node :=
  .planted .exportStatement none "" [p.declared name form]

/-- The handler that the statement declares. -/
def handler : FunctionDeclaration where
  name := name
  node := p.declaring name form
  function := p.function name form
  statement := p.statement name form
  writtenType := none

/-- What the statement binds the name to. -/
def binding : Binding :=
  match form with
  | .declaration => .function (p.function name form)
  | _ => .value (p.function name form)

/-! ## Reading the forms -/

theorem isFunction_function : (p.function name form).kind.isFunction = true := by
  cases form <;> rfl

theorem children_function :
    (p.function name form).children = p.front ++ form.names name ++ (p.signature ++ [p.body]) := rfl

/-- The children in roles are the same in all forms, the name aside. -/
theorem field?_function {role : Role} (h : role ≠ .name) :
    (p.function name form).field? role = (p.signature ++ [p.body]).find? fun c => c.role == some role := by
  have hfront : p.front.find? (fun c => c.role == some role) = none := by
    unfold front
    split <;> rfl
  have hnames : (form.names name).find? (fun c => c.role == some role) = none := by
    have hrole : (some Role.name == some role) = false := by simpa using Ne.symm h
    obtain hnone | ⟨own, hown⟩ := form.names_cases name
    · rw [hnone]
      rfl
    · simp [hown, nameNode, Node.planted, Node.role, hrole]
  unfold Node.field?
  rw [children_function, List.find?_append, List.find?_append, hfront, hnames]
  rfl

theorem field?_forms {role : Role} (h : role ≠ .name) :
    (p.function name form).field? role = (p.function name form').field? role := by
  rw [field?_function p name form h, field?_function p name form' h]

theorem hasToken_forms (token : String) :
    (p.function name form).hasToken token = (p.function name form').hasToken token := by
  have hnames : ∀ form : Form,
      ((form.names name).any fun c => c.kind == .token && c.text == token) = false := by
    intro form
    obtain h | ⟨own, h⟩ := form.names_cases name <;> rw [h] <;> rfl
  unfold Node.hasToken
  rw [children_function, children_function]
  simp only [List.any_append, hnames]

theorem field?_body : (p.function name form).field? .body = some p.body := by
  rw [field?_function p name form (by decide), List.find?_append,
    List.find?_eq_none.2 fun n hn => by simpa using (p.signature_role n hn).2]
  simp [p.body_role]

theorem parametersText_forms :
    parametersText (p.function name form) = parametersText (p.function name form') := by
  unfold parametersText
  rw [field?_forms p name form form' (by decide : Role.parameter ≠ .name),
    field?_forms p name form form' (by decide : Role.parameters ≠ .name)]

theorem parameterBindings_forms :
    parameterBindings (p.function name form) = parameterBindings (p.function name form') := by
  unfold parameterBindings
  rw [field?_forms p name form form' (by decide : Role.parameter ≠ .name),
    field?_forms p name form form' (by decide : Role.parameters ≠ .name)]

/-- What a function returns is found by the same rule in all forms. -/
theorem returnRule_forms (resolving : List String) :
    returnRule resolving (p.function name form) = returnRule resolving (p.function name form') := by
  have hreturned : returned (p.function name form) = returned (p.function name form') := by
    funext type
    have hasync : Typing.isAsync (p.function name form) = Typing.isAsync (p.function name form') :=
      hasToken_forms p name form form' "async"
    rw [returned, returned, hasync]
  have hbody := field?_forms p name form form' (by decide : Role.body ≠ .name)
  simp only [returnRule, Node.ownReturns, hreturned, hbody,
    field?_forms p name form form' (by decide : Role.returnType ≠ .name)]

/-! ## Below the forms -/

theorem preorders_front : Node.preorders p.front = p.front := by
  unfold front
  split <;> rfl

theorem descendants_function :
    (p.function name form).descendants =
      p.front ++ form.names name ++ Node.preorders (p.signature ++ [p.body]) := by
  have hnames : Node.preorders (form.names name) = form.names name := by
    obtain h | ⟨own, h⟩ := form.names_cases name <;> rw [h] <;> rfl
  rw [Node.descendants_eq_inner, Node.inner, children_function, Node.preorders_append,
    Node.preorders_append, preorders_front, hnames]

/-- Words and names bind nothing. -/
theorem functionBindings_function :
    functionBindings (p.function name form) =
      parameterBindings (p.function name form) ++
        (Node.preorders (p.signature ++ [p.body])).flatMap innerBindings := by
  have hfront : p.front.flatMap innerBindings = [] := by
    unfold front
    split <;> rfl
  have hnames : (form.names name).flatMap innerBindings = [] := by
    obtain h | ⟨own, h⟩ := form.names_cases name <;> rw [h] <;> rfl
  unfold functionBindings
  rw [descendants_function, List.flatMap_append, List.flatMap_append, hfront, hnames]
  rfl

/-- Statements and calls below the declaring node are those below its signature and its body. -/
theorem descendantsOf_declaring {kind : Kind} (h : kind = .returnStatement ∨ kind = .call) :
    (p.declaring name form).descendantsOf kind = below kind (p.signature ++ [p.body]) := by
  have hfront : p.front.filter (fun c => c.kind == kind) = [] := by
    unfold front
    rcases h with rfl | rfl <;> split <;> rfl
  have hfunction : ((p.function name form).descendants.filter fun c => c.kind == kind) =
      below kind (p.signature ++ [p.body]) := by
    have hnames : (form.names name).filter (fun c => c.kind == kind) = [] := by
      obtain hnone | ⟨own, hown⟩ := form.names_cases name
      · rw [hnone]
        rfl
      · rw [hown]
        rcases h with rfl | rfl <;> rfl
    rw [descendants_function, List.filter_append, List.filter_append, hfront, hnames]
    rfl
  have hdeclarator : form ≠ .declaration → (p.declaring name form).descendants =
      nameNode name :: p.function name form :: (p.function name form).descendants := by
    intro hform
    rw [Node.descendants_eq_inner, Node.descendants_eq_inner]
    cases form with
    | declaration => exact absurd rfl hform
    | _ => simp [declaring, Node.inner, Node.planted, Node.children, Node.preorders, Node.preorder_eq,
        nameNode]
  unfold Node.descendantsOf
  cases form with
  | declaration => exact hfunction
  | expression _ | arrow =>
    rw [hdeclarator (by simp), ← hfunction]
    rcases h with rfl | rfl <;> rfl

theorem responses_handler (helpers : List String) :
    responses helpers (p.handler name form) = responsesIn helpers (p.signature ++ [p.body]) := by
  unfold responses responsesIn
  rw [show (p.handler name form).node = p.declaring name form from rfl,
    descendantsOf_declaring p name form (Or.inl rfl)]

theorem queryParameters_handler (accessors : List String) :
    queryParameters accessors (p.handler name form) =
      (below .call (p.signature ++ [p.body])).filterMap (queryName? accessors) := by
  unfold queryParameters
  rw [show (p.handler name form).node = p.declaring name form from rfl,
    descendantsOf_declaring p name form (Or.inr rfl)]

/-! ## The statement -/

theorem initialValue?_declaring (h : form ≠ .declaration) :
    initialValue? (p.declaring name form) = some (p.function name form) := by
  have hvalue : (p.declaring name form).field? .value = some (p.function name form) := by
    cases form with
    | declaration => exact absurd rfl h
    | _ => rfl
  have hunwrap : (p.function name form).unwrap = p.function name form :=
    Node.unwrap_of_not_isWrapper (isWrapper_of_isFunction (isFunction_function p name form))
  rw [initialValue?_eq, hvalue, Option.map_some, hunwrap]
  cases form <;> rfl

theorem fieldText_name : (p.function name .declaration).fieldText .name = name := by
  have hfront : p.front.find? (fun c => c.role == some .name) = none := by
    unfold front
    split <;> rfl
  unfold Node.fieldText Node.field?
  rw [children_function, List.find?_append, List.find?_append, hfront]
  rfl

theorem declared_statement :
    Handler.declared (p.declared name form) (p.statement name form) =
      [(name, .function (p.handler name form))] := by
  cases form with
  | declaration =>
    show [((p.function name .declaration).fieldText .name, Declaration.function
      { name := (p.function name .declaration).fieldText .name
        node := p.function name .declaration
        function := p.function name .declaration
        statement := p.statement name .declaration
        writtenType := none })] = _
    rw [fieldText_name]
    rfl
  | expression own =>
    have hinitial := initialValue?_declaring p name (.expression own) nofun
    show [(name, declaredVariable name (p.declaring name (.expression own)) _)] = _
    rw [declaredVariable, hinitial]
    rfl
  | arrow =>
    have hinitial := initialValue?_declaring p name .arrow nofun
    show [(name, declaredVariable name (p.declaring name .arrow) _)] = _
    rw [declaredVariable, hinitial]
    rfl

theorem exportedWithDeclaration_statement :
    exportedWithDeclaration (p.statement name form) = [(name, .function (p.handler name form))] := by
  rw [← declared_statement]
  cases form <;> rfl

theorem declaredLocally_statement :
    declaredLocally (p.statement name form) = [(name, .function (p.handler name form))] := by
  rw [← exportedWithDeclaration_statement]
  rfl

theorem localClauses_statement : localClauses (p.statement name form) = [] := by
  cases form <;> rfl

theorem statementNames_statement :
    statementNames (p.statement name form) = [(name, p.binding name form)] := by
  cases form with
  | declaration =>
    show [((p.function name .declaration).fieldText .name, _)] = _
    rw [fieldText_name]
    rfl
  | expression _ | arrow => rfl

/-- Statements that export two handlers under a name match, as far as the handlers and what the name is
    bound to are related. -/
theorem statementsMatch {Entries : String × Binding → String × Binding → Prop}
    {Handlers : FunctionDeclaration → FunctionDeclaration → Prop} {p q : Parts}
    (hname : Entries (name, p.binding name form) (name, q.binding name form'))
    (hhandler : Handlers (p.handler name form) (q.handler name form')) :
    StatementsMatch Entries Handlers (p.statement name form) (q.statement name form') where
  names := by
    rw [statementNames_statement, statementNames_statement]
    exact .cons hname .nil
  declared := by
    rw [declaredLocally_statement, declaredLocally_statement]
    exact .cons ⟨rfl, .function hhandler⟩ .nil
  exported := by
    rw [exportedWithDeclaration_statement, exportedWithDeclaration_statement]
    exact .cons ⟨rfl, .function hhandler⟩ .nil
  clauses := by
    rw [localClauses_statement, localClauses_statement]

/-! ## Two forms -/

/-- The functions of two forms. -/
def TwinForms (f f' : Node) : Prop :=
  ∃ form form' : Form, f = p.function name form ∧ f' = p.function name form'

variable {accessors helpers : List String}

theorem areTwins_forms (s : Scope) : AreTwins accessors (p.TwinForms name) s where
  functions := by
    rintro _ _ ⟨form, form', rfl, rfl⟩
    exact ⟨isFunction_function p name form, isFunction_function p name form'⟩
  parameters := by
    rintro _ _ ⟨form, form', rfl, rfl⟩
    exact parametersText_forms p name form form'
  returns := by
    rintro _ _ ⟨form, form', rfl, rfl⟩ limit resolving
    rw [returnRule_forms p name form form']
    exact resembles_returnRule (ReadsAlike.refl _) (isFunction_function p name form')

theorem counterpart_forms :
    Counterpart accessors (p.TwinForms name) (p.function name form) (p.function name form') :=
  Or.inr ⟨form, form', rfl, rfl⟩

/-- **A handler is handled alike in all forms.** -/
theorem handlesAlike_forms :
    HandlesAlike accessors helpers (p.TwinForms name) (p.handler name form) (p.handler name form') where
  hasBody := by
    show ((p.function name form).field? .body).isSome = ((p.function name form').field? .body).isSome
    rw [field?_body, field?_body]
  writtenType := rfl
  isFunction := isFunction_function p name form
  function := counterpart_forms p name form form'
  names := by
    have hnames : functionBindings (p.function name form) =
        functionBindings (p.function name form') := by
      rw [functionBindings_function, functionBindings_function, parameterBindings_forms]
    show EntriesResemble _ (functionBindings (p.function name form)) _
    rw [hnames]
    exact functionBindings_alike (ReadsAlike.refl _) (isFunction_function p name form')
  queries := by
    rw [queryParameters_handler, queryParameters_handler]
  responses := by
    rw [responses_handler, responses_handler]
    exact List.forall₂_same.2 fun _ _ => Counterpart.refl _

end Parts

end RouteAtlas.Handler
