/-
  RouteAtlas: arrow functions that give an expression.

  An arrow function gives an expression, or has a block that returns it.  Both have the same type, unless
  the text of the type is empty; but what a handler responds with is looked for in return statements, and
  only the block has one of its own.

  * `IsExpression e`: no statement, and no return statement in it outside functions;
  * `Parts.giving e` and `Parts.returning e` are the two handlers;
  * `areTwins_returned` and `declaresAlike_returned`: their functions are twins, and they are declared
    alike and ask the query alike;
  * `responses_giving` and `responses_returning`: what each of them responds with.
-/
import RouteAtlas.Proofs.Handler.Forms
import RouteAtlas.Proofs.Typing.WellFormed

namespace RouteAtlas.Handler

open RouteAtlas.Code RouteAtlas.Typing
open Context (answer)

/-! ## Expressions as bodies -/

/-- An expression: no statement, and no return statement in it outside functions. -/
structure IsExpression (e : Node) : Prop where
  named : e.isNamed = true
  notBlock : e.kind ≠ .block
  notReturn : e.kind ≠ .returnStatement
  noReturns : Node.visitReturns [] ([e].filter fun c => !c.hidesReturns) = []

/-- The statement that returns an expression. -/
def returnOf (e : Node) : Node :=
  .planted .returnStatement none "" [e]

/-- The block that returns an expression, as the body of a function. -/
def blockOf (e : Node) : Node :=
  .planted .block (some .body) "" [returnOf e]

/-- What was found before the visit stands in front of what it finds. -/
theorem visitReturns_append (found more stack : List Node) :
    Node.visitReturns (found ++ more) stack = more.reverse ++ Node.visitReturns found stack := by
  induction found, stack using Node.visitReturns.induct with
  | case1 found => rw [Node.visitReturns, Node.visitReturns, List.reverse_append]
  | case2 found n rest ih =>
    rw [Node.visitReturns, Node.visitReturns]
    by_cases hk : (n.kind == .returnStatement) = true
    · rw [dif_pos hk] at ih
      rw [if_pos hk, if_pos hk]
      exact ih
    · rw [dif_neg hk] at ih
      rw [if_neg hk, if_neg hk]
      exact ih

theorem role_blockOf (e : Node) : (blockOf e).role = some .body :=
  rfl

/-- The block returns the expression, and nothing else. -/
theorem visitReturns_blockOf {e : Node} (h : IsExpression e) :
    Node.visitReturns [] [blockOf e] = [returnOf e] := by
  rw [Node.visitReturns]
  show Node.visitReturns [] [returnOf e] = _
  rw [Node.visitReturns]
  show Node.visitReturns ([] ++ [returnOf e]) (([e].filter fun c => !c.hidesReturns) ++ []) = _
  rw [visitReturns_append, List.append_nil, h.noReturns]
  rfl

/-- The type of an expression has a text in a scope, at every limit. -/
def Worded (s : Scope) (e : Node) : Prop :=
  ∀ limit resolving, answer s limit resolving (.infer e) ≠ some ""

namespace Parts

variable (p : Parts) (name : String) (e : Node)

/-- The handler that gives an expression. -/
def giving : Parts where
  isAsync := p.isAsync
  signature := p.signature
  body := e.withRole .body
  signature_role := p.signature_role
  body_role := by cases e; rfl

/-- The handler that has a block which returns the expression. -/
def returning : Parts where
  isAsync := p.isAsync
  signature := p.signature
  body := blockOf e
  signature_role := p.signature_role
  body_role := role_blockOf e

/-! ## Types -/

/-- Children in other roles are the same. -/
theorem field?_returned {role : Role} (h : role ≠ .name) (hbody : role ≠ .body) :
    ((p.giving e).function name .arrow).field? role =
      ((p.returning e).function name .arrow).field? role := by
  have hskip : ∀ q : Parts, (q.function name .arrow).field? role =
      q.signature.find? fun c => c.role == some role := by
    intro q
    have hrole : (q.body.role == some role) = false := by
      rw [q.body_role]
      simpa using Ne.symm hbody
    rw [field?_function q name .arrow h, List.find?_append, List.find?_cons, hrole]
    simp
  rw [hskip, hskip]
  rfl

theorem parametersText_returned :
    parametersText ((p.giving e).function name .arrow) =
      parametersText ((p.returning e).function name .arrow) := by
  unfold parametersText
  rw [field?_returned p name e (by decide : Role.parameter ≠ .name) (by decide),
    field?_returned p name e (by decide : Role.parameters ≠ .name) (by decide)]

theorem parameterBindings_returned :
    parameterBindings ((p.giving e).function name .arrow) =
      parameterBindings ((p.returning e).function name .arrow) := by
  unfold parameterBindings
  rw [field?_returned p name e (by decide : Role.parameter ≠ .name) (by decide),
    field?_returned p name e (by decide : Role.parameters ≠ .name) (by decide)]

variable {e} (he : IsExpression e)
include he

theorem returned_eq :
    returned ((p.giving e).function name .arrow) = returned ((p.returning e).function name .arrow) := by
  have hbody : ((e.withRole .body).kind == .token) = false := by
    rw [Node.kind_withRole]
    simpa [Node.isNamed] using he.named
  have hasync : Typing.isAsync ((p.giving e).function name .arrow) =
      Typing.isAsync ((p.returning e).function name .arrow) := by
    show (((p.giving e).front ++ [] ++ (p.signature ++ [e.withRole .body])).any _) =
      (((p.giving e).front ++ [] ++ (p.signature ++ [blockOf e])).any _)
    simp only [List.any_append, List.any_cons, hbody]
    rfl
  funext type
  rw [returned, returned, hasync]

/-- The rule for what the expression gives. -/
theorem returnRule_giving (resolving : List String) :
    returnRule resolving ((p.giving e).function name .arrow) =
      match typeTextOf (((p.giving e).function name .arrow).field? .returnType) with
      | some type => .plain type
      | none => .one (.call resolving (.infer (e.withRole .body)))
          (returned ((p.giving e).function name .arrow)) := by
  have hbody : ((p.giving e).body.kind != .block) = true := by
    show ((e.withRole .body).kind != .block) = true
    rw [Node.kind_withRole]
    simpa using he.notBlock
  unfold returnRule
  rw [field?_body]
  simp only [hbody, if_true]
  rfl

/-- The rule for what the block returns. -/
theorem returnRule_returning (resolving : List String) :
    returnRule resolving ((p.returning e).function name .arrow) =
      match typeTextOf (((p.returning e).function name .arrow).field? .returnType) with
      | some type => .plain type
      | none => ⟨[.call resolving (.infer e)],
          fun types => returned ((p.returning e).function name .arrow) (union types)⟩ := by
  have hreturns : ((p.returning e).function name .arrow).ownReturns = [returnOf e] := by
    unfold Node.ownReturns
    rw [field?_body]
    exact visitReturns_blockOf he
  have hbody : ((p.returning e).body.kind != .block) = false := rfl
  have hfirst : Question.first resolving (returnOf e) "undefined" = .call resolving (.infer e) := by
    have hnamed : (returnOf e).named = [e] := by
      show [e].filter Node.isNamed = [e]
      simp [he.named]
    simp [Question.first, hnamed]
  unfold returnRule
  rw [field?_body, hreturns]
  simp only [hbody, List.map_cons, List.map_nil, hfirst]
  rfl

/-- **A type with a text is returned as it is given.** -/
theorem resembles_returned {accessors : List String} {Twin : Node → Node → Prop} {answers : Answers}
    {resolving : List String} (htext : answers resolving (.infer (e.withRole .body)) ≠ some "") :
    (returnRule resolving ((p.giving e).function name .arrow)).Resembles (CallsOf accessors Twin) answers
      (returnRule resolving ((p.returning e).function name .arrow)) := by
  rw [returnRule_giving p name he, returnRule_returning p name he,
    field?_returned p name e (by decide : Role.returnType ≠ .name) (by decide),
    returned_eq p name he]
  split
  · exact .plain _
  · refine ⟨.cons (.call resolving (.infer (ReadsAlike.withRole e .body).counterpart)) .nil,
      fun types htypes => ?_⟩
    -- There is one answer, and its union with nothing is the answer itself.
    obtain ⟨type, htype, htypes⟩ := Option.bind_eq_some_iff.1 htypes
    cases htypes
    have hne : type ≠ "" := fun h => htext (h ▸ htype)
    show returned _ type = returned _ (union [type])
    rw [union_single hne]

omit he

/-! ## Names, queries and responses -/

theorem preorders_giving :
    Node.preorders (p.signature ++ [e.withRole .body]) =
      Node.preorders p.signature ++ e.withRole .body :: e.inner := by
  cases e with
  | mk kind role span text children =>
    simp [Node.preorders_append, Node.preorders, Node.preorder, Node.withRole, Node.inner, Node.children]

theorem preorders_returning :
    Node.preorders (p.signature ++ [blockOf e]) =
      Node.preorders p.signature ++ blockOf e :: returnOf e :: e :: e.inner := by
  simp [Node.preorders_append, Node.preorders, blockOf, returnOf, Node.planted, Node.preorder,
    Node.preorder_eq e]

/-- The functions that give the expression and return it. -/
def TwinReturned (e f f' : Node) : Prop :=
  f = (p.giving e).function name .arrow ∧ f' = (p.returning e).function name .arrow

variable {accessors helpers : List String}

/-- **The functions are twins** where the type of the expression always has a text. -/
theorem areTwins_returned (he : IsExpression e) {s : Scope}
    (hworded : Worded s (e.withRole .body)) : AreTwins accessors (p.TwinReturned name e) s where
  functions := by
    rintro _ _ ⟨rfl, rfl⟩
    exact ⟨isFunction_function _ name .arrow, isFunction_function _ name .arrow⟩
  parameters := by
    rintro _ _ ⟨rfl, rfl⟩
    exact parametersText_returned p name e
  returns := by
    rintro _ _ ⟨rfl, rfl⟩ limit resolving
    exact resembles_returned p name he (hworded limit resolving)

/-- Nodes bind what they bind. -/
theorem entries_refl {Twin : Node → Node → Prop} (ns : List Node) :
    EntriesResemble (Counterpart accessors Twin) (ns.flatMap innerBindings)
      (ns.flatMap innerBindings) :=
  List.rel_flatMap (List.forall₂_same.2 fun n _ => ReadsAlike.refl n) fun _ _ hn => innerBindings_alike hn

theorem names_returned :
    EntriesResemble (Counterpart accessors (p.TwinReturned name e))
      (functionBindings ((p.giving e).function name .arrow))
      (functionBindings ((p.returning e).function name .arrow)) := by
  rw [functionBindings_function, functionBindings_function, ← parameterBindings_returned]
  refine EntriesResemble.append (parameterBindings_alike (ReadsAlike.refl _)
    (isFunction_function _ name .arrow)) ?_
  show EntriesResemble _ ((Node.preorders (p.signature ++ [e.withRole .body])).flatMap innerBindings)
    ((Node.preorders (p.signature ++ [blockOf e])).flatMap innerBindings)
  rw [preorders_giving, preorders_returning, List.flatMap_append, List.flatMap_append]
  refine EntriesResemble.append (entries_refl _) ?_
  -- The block and the return statement bind nothing.
  have hskip : (blockOf e :: returnOf e :: e :: e.inner).flatMap innerBindings =
      (e :: e.inner).flatMap innerBindings := rfl
  rw [hskip, List.flatMap_cons, List.flatMap_cons]
  exact EntriesResemble.append (innerBindings_alike (ReadsAlike.withRole e .body)) (entries_refl e.inner)

theorem queries_returned :
    queryParameters accessors ((p.giving e).handler name .arrow) =
      queryParameters accessors ((p.returning e).handler name .arrow) := by
  have hname : queryName? accessors (e.withRole .body) = queryName? accessors e := by cases e; rfl
  have hskip : (blockOf e :: returnOf e :: e :: e.inner).filter (fun c => c.kind == .call) =
      (e :: e.inner).filter fun c => c.kind == .call := rfl
  rw [queryParameters_handler, queryParameters_handler]
  show (((Node.preorders (p.signature ++ [e.withRole .body])).filter _).filterMap _) =
    (((Node.preorders (p.signature ++ [blockOf e])).filter _).filterMap _)
  rw [preorders_giving, preorders_returning, List.filter_append, List.filter_append,
    List.filterMap_append, List.filterMap_append, hskip, List.filter_cons, List.filter_cons,
    Node.kind_withRole]
  split
  · rw [List.filterMap_cons, List.filterMap_cons, hname]
  · rfl

/-- **The handlers are declared alike, and ask the query alike.** -/
theorem declaresAlike_returned :
    DeclaresAlike accessors (p.TwinReturned name e) ((p.giving e).handler name .arrow)
      ((p.returning e).handler name .arrow) where
  hasBody := by
    show (((p.giving e).function name .arrow).field? .body).isSome =
      (((p.returning e).function name .arrow).field? .body).isSome
    rw [field?_body, field?_body]
    rfl
  writtenType := rfl
  isFunction := isFunction_function _ name .arrow
  function := Or.inr ⟨rfl, rfl⟩
  names := names_returned p name
  queries := queries_returned p name

/-- **What gives an expression responds with what the return statements in it do**, which are those of
    functions. -/
theorem responses_giving (he : IsExpression e) :
    responses helpers ((p.giving e).handler name .arrow) =
      responsesIn helpers p.signature ++ responsesIn helpers e.children := by
  have hkind : ((e.withRole .body).kind == .returnStatement) = false := by
    rw [Node.kind_withRole]
    simpa using he.notReturn
  rw [responses_handler]
  show (((Node.preorders (p.signature ++ [e.withRole .body])).filter _).filterMap _) = _
  rw [preorders_giving, List.filter_append, List.filterMap_append, List.filter_cons, hkind]
  rfl

/-- **What returns the expression responds with it as well.** -/
theorem responses_returning (he : IsExpression e) :
    responses helpers ((p.returning e).handler name .arrow) =
      responsesIn helpers p.signature ++
        ((responseOf? helpers (returnOf e)).toList ++ responsesIn helpers e.children) := by
  have hkind : (e.kind == .returnStatement) = false := by simpa using he.notReturn
  rw [responses_handler]
  show (((Node.preorders (p.signature ++ [blockOf e])).filter _).filterMap _) = _
  rw [preorders_returning, List.filter_append, List.filterMap_append]
  show _ ++ ((returnOf e :: (e :: e.inner).filter _).filterMap _) = _
  rw [List.filter_cons, hkind, List.filterMap_cons]
  cases responseOf? helpers (returnOf e) <;> rfl

/-- **Where the expression responds with nothing, the handlers are handled alike.** -/
theorem handlesAlike_returned (he : IsExpression e) (hnone : responseOf? helpers (returnOf e) = none) :
    HandlesAlike accessors helpers (p.TwinReturned name e) ((p.giving e).handler name .arrow)
      ((p.returning e).handler name .arrow) where
  toDeclaresAlike := declaresAlike_returned p name
  responses := by
    rw [responses_giving p name he, responses_returning p name he, hnone]
    exact List.forall₂_same.2 fun _ _ => Counterpart.refl _

end Parts

end RouteAtlas.Handler
