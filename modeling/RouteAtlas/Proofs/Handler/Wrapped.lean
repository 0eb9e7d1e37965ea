/-
  RouteAtlas: handlers in wrappers.

  A handler can be the value of a constant in parentheses, with non-null marks, and with types behind
  `satisfies` and `as`.

  * `wrapped ws f` is a function in wrappers, `assertions ws` the number of `as` among them, and
    `Wrapped.statement name ws f` the statement that exports it under a name;
  * `peel n ws` are the wrappers that are left of `ws` without `n` times `as` and what is around them:
    `unwrap_wrapped` and `foundIn_wrapped` say what is found in wrappers, `peel_eq_nil_iff` when it is the
    function;
  * `exportedWithDeclaration_wrapped`: the name is exported as the function, or as something else;
  * `handlesAlike_wrapped`: the handler is handled like the bare one.
-/
import RouteAtlas.Proofs.Handler.Forms

namespace RouteAtlas.Handler

open RouteAtlas.Code RouteAtlas.Typing
open Context (answer)

/-! ## Wrappers -/

/-- A type that is written behind an expression: nothing in it returns, or asks the query.  So it is with
    all types, which hold no statements and call nothing but `import`. -/
structure SilentType (accessors : List String) where
  node : Node
  noReturn : ∀ n ∈ node.preorder, n.kind ≠ .returnStatement
  noQuery : ∀ n ∈ node.preorder, n.kind = .call → queryName? accessors n = none

/-- What can stand around an expression. -/
inductive Wrapper (accessors : List String) where
  | parentheses
  | nonNull
  | satisfies (type : SilentType accessors)
  | asserted (type : SilentType accessors)

namespace Wrapper

variable {accessors : List String}

/-- The kind of an expression in a wrapper. -/
def kind : Wrapper accessors → Kind
  | parentheses => .parenthesized
  | nonNull => .nonNull
  | satisfies _ => .satisfies
  | asserted _ => .asExpression

/-- The type in a wrapper. -/
def types : Wrapper accessors → List Node
  | parentheses | nonNull => []
  | satisfies type | asserted type => [type.node]

/-- Whether a wrapper is an `as`. -/
def isAssertion : Wrapper accessors → Bool
  | asserted _ => true
  | _ => false

/-- An expression in a wrapper. -/
def around (w : Wrapper accessors) (e : Node) : Node :=
  .planted w.kind none "" (e :: w.types)

variable (w : Wrapper accessors) {e : Node}

theorem head?_around (he : e.isNamed = true) (role : Role) :
    (w.around e).named.head? = some e ∧ ((w.around e).withRole role).named.head? = some e := by
  have hhead : ((e :: w.types).filter Node.isNamed).head? = some e := by
    rw [List.filter_cons_of_pos he]
    rfl
  exact ⟨hhead, hhead⟩

/-- All wrappers but `as` are looked through. -/
theorem isWrapper_around (e : Node) : (w.around e).kind.isWrapper = !w.isAssertion := by
  cases w <;> rfl

theorem kind_around (e : Node) (h : w.isAssertion = true) : (w.around e).kind = .asExpression := by
  cases w <;> first | rfl | cases h

theorem unwrap_around (he : e.isNamed = true) (h : w.isAssertion = false) :
    (w.around e).unwrap = e.unwrap :=
  Node.unwrap_of_head (by rw [isWrapper_around, h]; rfl) (w.head?_around he .value).1

theorem unwrap_around_self (e : Node) (h : w.isAssertion = true) : (w.around e).unwrap = w.around e :=
  Node.unwrap_of_not_isWrapper (by rw [isWrapper_around, h]; rfl)

end Wrapper

/-! ## Functions in wrappers -/

/-- A function with a body that is written as an expression. -/
structure FunctionValue where
  node : Node
  isValue : node.kind.isFunctionValue = true
  hasBody : (node.field? .body).isSome = true

variable {accessors helpers : List String}

/-- A function in wrappers, the outer one first. -/
def wrapped (ws : List (Wrapper accessors)) (f : FunctionValue) : Node :=
  ws.foldr Wrapper.around f.node

/-- No wrappers. -/
abbrev bare (accessors : List String) : List (Wrapper accessors) :=
  []

/-- How many wrappers are an `as`. -/
def assertions (ws : List (Wrapper accessors)) : Nat :=
  ws.countP Wrapper.isAssertion

/-- The wrappers that are left without the outermost `as`, a number of times, and without what stands
    around them. -/
def peel : Nat → List (Wrapper accessors) → List (Wrapper accessors)
  | _, [] => []
  | n, w :: ws =>
    if w.isAssertion then
      match n with
      | 0 => w :: ws
      | n + 1 => peel n ws
    else peel n ws

section
variable (n : Nat) (w : Wrapper accessors) (ws : List (Wrapper accessors)) (f : FunctionValue)

theorem peel_of_not_assertion {w : Wrapper accessors} (h : w.isAssertion = false) :
    peel n (w :: ws) = peel n ws := by
  cases n <;> rw [peel, h] <;> rfl

theorem peel_zero_of_assertion {w : Wrapper accessors} (h : w.isAssertion = true) :
    peel 0 (w :: ws) = w :: ws := by
  rw [peel, if_pos h]

theorem peel_succ_of_assertion {w : Wrapper accessors} (h : w.isAssertion = true) :
    peel (n + 1) (w :: ws) = peel n ws := by
  rw [peel, if_pos h]

/-- **Peeling comes to an end** if there are no more `as`. -/
theorem peel_eq_nil_iff : peel n ws = [] ↔ assertions ws ≤ n := by
  unfold assertions
  induction ws generalizing n with
  | nil => simp [peel]
  | cons w ws ih =>
    rw [List.countP_cons]
    cases h : w.isAssertion with
    | false => simp [peel_of_not_assertion n ws h, ih]
    | true =>
      cases n with
      | zero => simp [peel_zero_of_assertion ws h]
      | succ n => simp [peel_succ_of_assertion n ws h, ih]

/-- Peeling stops at an `as`. -/
theorem isAssertion_of_peel {rest : List (Wrapper accessors)} (h : peel n ws = w :: rest) :
    w.isAssertion = true := by
  induction ws generalizing n with
  | nil => cases h
  | cons v ws ih =>
    cases hv : v.isAssertion with
    | false =>
      rw [peel_of_not_assertion n ws hv] at h
      exact ih n h
    | true =>
      cases n with
      | zero =>
        rw [peel_zero_of_assertion ws hv] at h
        cases h
        exact hv
      | succ n =>
        rw [peel_succ_of_assertion n ws hv] at h
        exact ih n h

theorem FunctionValue.isFunction : f.node.kind.isFunction = true :=
  isFunction_of_isFunctionValue f.isValue

theorem isNamed_wrapped : (wrapped ws f).isNamed = true := by
  cases ws with
  | nil =>
    have h := f.isValue
    show (f.node.kind != .token) = true
    revert h
    cases f.node.kind <;> decide
  | cons w ws => cases w <;> rfl

theorem unwrap_function : f.node.unwrap = f.node :=
  Node.unwrap_of_not_isWrapper (isWrapper_of_isFunction f.isFunction)

/-- Unwrapping stops at the outermost `as`. -/
theorem unwrap_wrapped : (wrapped ws f).unwrap = wrapped (peel 0 ws) f := by
  induction ws with
  | nil => exact unwrap_function f
  | cons w ws ih =>
    cases h : w.isAssertion with
    | false =>
      rw [peel_of_not_assertion 0 ws h, ← ih]
      exact w.unwrap_around (isNamed_wrapped ws f) h
    | true =>
      rw [peel_zero_of_assertion ws h]
      exact w.unwrap_around_self _ h

/-- **What no `as` is around is found in its wrappers.** -/
theorem unwrap_of_no_assertion (h : assertions ws = 0) : (wrapped ws f).unwrap = f.node := by
  rw [unwrap_wrapped, (peel_eq_nil_iff 0 ws).2 (Nat.le_of_eq h)]
  rfl

end

/-! ## Statements -/

namespace Wrapped

variable (name : String) (ws : List (Wrapper accessors)) (f : FunctionValue)

/-- The value that the constant starts with. -/
def value : Node :=
  (wrapped ws f).withRole .value

/-- The function in the value. -/
def function : Node :=
  match ws with
  | [] => f.node.withRole .value
  | _ :: _ => f.node

/-- The node that declares the handler. -/
def declarator : Node :=
  .planted .declarator none "" [nameNode name, value ws f]

/-- The statement that exports the handler. -/
def statement : Node :=
  .planted .exportStatement none "" [
    .planted .variableDeclaration (some .declaration) "" [declarator name ws f]]

/-- The handler that the statement declares. -/
def handler : FunctionDeclaration where
  name := name
  node := declarator name ws f
  function := function ws f
  statement := statement name ws f
  writtenType := none

/-- What the statement declares: the handler, or something that is no function. -/
def declaration : Declaration :=
  if assertions ws ≤ 1 then .function (handler name ws f)
  else .other name (declarator name ws f) .variable_

theorem kind_function : (function ws f).kind = f.node.kind := by
  cases ws with
  | nil => exact Node.kind_withRole f.node .value
  | cons w ws => rfl

theorem isFunction_function : (function ws f).kind.isFunction = true := by
  rw [kind_function]
  exact f.isFunction

/-! ## What is declared -/

/-- What is found in an expression without wrappers, nor one `as` with the wrappers inside it. -/
def foundIn (v : Node) : Node :=
  if v.unwrap.kind == .asExpression then (v.unwrap.named.head?.map Node.unwrap).getD v.unwrap
  else v.unwrap

/-- What a variable starts with, where its value is in wrappers. -/
theorem initialValue?_of_value {d v : Node} (h : d.field? .value = some v) :
    initialValue? d = some (foundIn v) := by
  rw [initialValue?_eq, h]
  rfl

theorem foundIn_wrapped : foundIn (wrapped ws f) = wrapped (peel 1 ws) f := by
  induction ws with
  | nil =>
    unfold foundIn
    rw [show wrapped [] f = f.node from rfl, unwrap_function, if_neg]
    · rfl
    · simpa using (isFunctionValue_plain f.isValue).2.2
  | cons w ws ih =>
    cases h : w.isAssertion with
    | false =>
      rw [peel_of_not_assertion 1 ws h, ← ih]
      unfold foundIn
      rw [unwrap_wrapped, unwrap_wrapped, peel_of_not_assertion 0 ws h]
    | true =>
      unfold foundIn
      rw [peel_succ_of_assertion 0 ws h, unwrap_wrapped, peel_zero_of_assertion ws h, if_pos,
        show wrapped (w :: ws) f = w.around (wrapped ws f) from rfl,
        (w.head?_around (isNamed_wrapped ws f) .value).1]
      · exact unwrap_wrapped ws f
      · exact beq_iff_eq.2 (w.kind_around _ h)

/-- The part that an expression in a wrapper plays is not looked at. -/
theorem foundIn_around (w : Wrapper accessors) {e : Node} (he : e.isNamed = true) :
    foundIn ((w.around e).withRole .value) = foundIn (w.around e) := by
  obtain ⟨hhead, hhead'⟩ := w.head?_around he .value
  have hplay : ((w.around e).withRole .value).kind = (w.around e).kind := Node.kind_withRole _ .value
  unfold foundIn
  cases h : w.isAssertion with
  | false =>
    have hvalue : ((w.around e).withRole .value).unwrap = e.unwrap :=
      Node.unwrap_of_head (by rw [hplay, w.isWrapper_around, h]; rfl) hhead'
    rw [w.unwrap_around he h, hvalue]
  | true =>
    have hvalue : ((w.around e).withRole .value).unwrap = (w.around e).withRole .value :=
      Node.unwrap_of_not_isWrapper (by rw [hplay, w.isWrapper_around, h]; rfl)
    simp only [w.unwrap_around_self e h, hvalue, hhead, hhead', hplay, w.kind_around e h,
      beq_self_eq_true, if_true, Option.map_some, Option.getD_some]

theorem foundIn_value :
    foundIn (value ws f) = if assertions ws ≤ 1 then function ws f else wrapped (peel 1 ws) f := by
  cases ws with
  | nil =>
    have hkind : (f.node.withRole .value).kind = f.node.kind := Node.kind_withRole f.node .value
    obtain ⟨hplain, -, hne⟩ := isFunctionValue_plain f.isValue
    unfold foundIn
    rw [show value [] f = f.node.withRole .value from rfl,
      Node.unwrap_of_not_isWrapper (by rw [hkind]; exact hplain), if_neg (by simpa [hkind] using hne)]
    rfl
  | cons w ws =>
    rw [show value (w :: ws) f = (w.around (wrapped ws f)).withRole .value from rfl,
      foundIn_around w (isNamed_wrapped ws f)]
    refine (foundIn_wrapped (w :: ws) f).trans ?_
    split
    · rename_i hone
      rw [(peel_eq_nil_iff 1 (w :: ws)).2 hone]
      rfl
    · rfl

theorem field?_declarator {role : Role} (h : role ≠ .name) :
    (declarator name ws f).field? role = if role = .value then some (value ws f) else none := by
  have hvalue : (value ws f).role = some .value := Node.role_withRole _ .value
  have hname : (nameNode name).role = some .name := rfl
  show [nameNode name, value ws f].find? (fun c => c.role == some role) = _
  rw [List.find?_cons_of_neg (by simpa [hname] using Ne.symm h)]
  by_cases hrole : role = .value
  · rw [List.find?_cons_of_pos (by simp [hvalue, hrole]), if_pos hrole]
  · rw [List.find?_cons_of_neg (by simpa [hvalue] using Ne.symm hrole), if_neg hrole]
    rfl

theorem declaredVariable_declarator :
    declaredVariable name (declarator name ws f) (statement name ws f) = declaration name ws f := by
  unfold declaredVariable declaration
  rw [initialValue?_of_value (field?_declarator name ws f (by decide)), foundIn_value]
  by_cases hone : assertions ws ≤ 1
  · simp only [if_pos hone, kind_function, f.isValue, if_true,
      field?_declarator name ws f (by decide : Role.type ≠ .name)]
    rfl
  · -- What is left of the wrappers is an `as`, which is no function.
    obtain ⟨w, left, hleft⟩ := List.exists_cons_of_ne_nil (mt (peel_eq_nil_iff 1 ws).1 hone)
    have hkind : (wrapped (w :: left) f).kind = .asExpression :=
      w.kind_around _ (isAssertion_of_peel 1 w ws hleft)
    simp only [if_neg hone, hleft, hkind]
    rfl

/-- **A handler in wrappers is exported as a function with one `as` at most**, and as something that is
    no function with more of them. -/
theorem exportedWithDeclaration_wrapped :
    exportedWithDeclaration (statement name ws f) = [(name, declaration name ws f)] := by
  rw [← declaredVariable_declarator]
  rfl

theorem declaredLocally_wrapped :
    declaredLocally (statement name ws f) = [(name, declaration name ws f)] := by
  rw [← exportedWithDeclaration_wrapped]
  rfl

theorem localClauses_wrapped : localClauses (statement name ws f) = [] := rfl

theorem statementNames_wrapped :
    statementNames (statement name ws f) = [(name, .value (value ws f))] := by
  show declaratorBindings (declarator name ws f) ++ [] = _
  unfold declaratorBindings
  rw [field?_declarator name ws f (by decide : Role.type ≠ .name),
    field?_declarator name ws f (by decide : Role.value ≠ .name)]
  rfl

/-! ## What is below the value -/

variable {kind : Kind}

variable (hkind : kind = .returnStatement ∨ kind = .call)
include hkind

theorem kind_wrapped : (wrapped ws f).kind ≠ kind := by
  cases ws with
  | nil =>
    have h := f.isValue
    show f.node.kind ≠ kind
    rcases hkind with rfl | rfl <;> intro hf <;> rw [hf] at h <;> cases h
  | cons w ws => rcases hkind with rfl | rfl <;> cases w <;> exact nofun

/-- What types have nothing of is collected from the function. -/
theorem below_wrapped {β : Type} {read : Node → Option β}
    (htypes : ∀ type : SilentType accessors, ∀ n ∈ type.node.preorder, n.kind = kind → read n = none) :
    (below kind [wrapped ws f]).filterMap read = (below kind [f.node]).filterMap read := by
  induction ws with
  | nil => rfl
  | cons w ws ih =>
    have htype : (below kind w.types).filterMap read = [] := by
      rw [List.filterMap_eq_nil_iff]
      intro n hn
      obtain ⟨hn, hnkind⟩ := List.mem_filter.1 hn
      obtain ⟨t, ht, hn⟩ := Node.mem_preorders.1 hn
      cases w with
      | parentheses | nonNull => cases ht
      | satisfies type | asserted type =>
        cases List.mem_singleton.1 ht
        exact htypes type n hn (beq_iff_eq.1 hnkind)
    rw [below_of_ne (kind_wrapped (w :: ws) f hkind)]
    show (below kind (wrapped ws f :: w.types)).filterMap read = _
    rw [below_cons, List.filterMap_append, htype, List.append_nil]
    exact ih

theorem descendantsOf_declarator :
    (declarator name ws f).descendantsOf kind = below kind [wrapped ws f] := by
  have hvalue : (value ws f).kind = (wrapped ws f).kind := Node.kind_withRole _ .value
  have hplain : (value ws f).kind ≠ kind := hvalue ▸ kind_wrapped ws f hkind
  have hname : below kind [nameNode name] = [] := by
    rcases hkind with rfl | rfl <;> rfl
  unfold Node.descendantsOf
  rw [Node.descendants_eq_inner]
  show below kind [nameNode name, value ws f] = _
  rw [below_cons, hname, List.nil_append, below_of_ne hplain,
    show (value ws f).children = (wrapped ws f).children from Node.children_withRole _ .value,
    ← below_of_ne (kind_wrapped ws f hkind)]

omit hkind

/-- **A handler in wrappers responds with what the function responds with.** -/
theorem responses_wrapped :
    responses helpers (handler name ws f) = responsesIn helpers [f.node] := by
  unfold responses responsesIn
  rw [show (handler name ws f).node = declarator name ws f from rfl,
    descendantsOf_declarator name ws f (Or.inl rfl)]
  exact below_wrapped ws f (Or.inl rfl) fun type n hn hreturn => absurd hreturn (type.noReturn n hn)

/-- **It asks the query for what the function asks it for.** -/
theorem queryParameters_wrapped :
    queryParameters accessors (handler name ws f) =
      (below .call [f.node]).filterMap (queryName? accessors) := by
  unfold queryParameters
  rw [show (handler name ws f).node = declarator name ws f from rfl,
    descendantsOf_declarator name ws f (Or.inr rfl)]
  exact below_wrapped ws f (Or.inr rfl) fun type => type.noQuery

/-! ## Types -/

/-- **Wrappers without `as` leave the type as it is**, and each of them takes one of the limit. -/
theorem answer_wrapped (s : Scope) (limit : Nat) (resolving : List String) (h : assertions ws = 0) :
    answer s (limit + ws.length) resolving (.infer (wrapped ws f)) =
      answer s limit resolving (.infer f.node) := by
  induction ws with
  | nil => rfl
  | cons w ws ih =>
    unfold assertions at h ih
    rw [List.countP_cons] at h
    have hassertion : w.isAssertion = false := by
      cases hw : w.isAssertion with
      | false => rfl
      | true => rw [hw] at h; cases h
    have hwrapper : (w.around (wrapped ws f)).kind.isWrapper = true := by
      rw [w.isWrapper_around, hassertion]
      rfl
    have hrule : Call.rule resolving s (.infer (w.around (wrapped ws f))) =
        .one (.call resolving (.infer (wrapped ws f))) id := by
      show expressionRule resolving (w.around (wrapped ws f)) = _
      rw [expressionRule_of_isWrapper resolving hwrapper]
      unfold Question.first
      rw [(w.head?_around (isNamed_wrapped ws f) .value).1]
    have hanswer := answer_eq s (limit + ws.length) resolving (.infer (w.around (wrapped ws f)))
    rw [hrule, Rule.apply_one, Option.map_id_fun] at hanswer
    exact hanswer.trans (ih (by omega))

/-! ## With and without wrappers -/

variable {Twin : Node → Node → Prop}

theorem function_alike : ReadsAlike accessors (function (bare accessors) f) (function ws f) := by
  cases ws with
  | nil => exact ReadsAlike.refl _
  | cons w ws => exact ReadsAlike.withRole f.node .value

theorem hasBody_handler : (handler name ws f).hasBody = true := by
  have hfield : (function ws f).field? .body = f.node.field? .body := by
    cases ws with
    | nil => exact congrArg (List.find? _) (Node.children_withRole f.node .value)
    | cons w ws => rfl
  show ((function ws f).field? .body).isSome = true
  rw [hfield]
  exact f.hasBody

/-- **A handler in wrappers is handled like the bare one.** -/
theorem handlesAlike_wrapped :
    HandlesAlike accessors helpers Twin (handler name (bare accessors) f)
      (handler name ws f) where
  hasBody := by rw [hasBody_handler, hasBody_handler]
  writtenType := rfl
  isFunction := isFunction_function (bare accessors) f
  function := (function_alike ws f).counterpart
  names := functionBindings_alike (function_alike ws f) (isFunction_function (bare accessors) f)
  queries := by rw [queryParameters_wrapped, queryParameters_wrapped]
  responses := by
    rw [responses_wrapped, responses_wrapped]
    exact List.forall₂_same.2 fun _ _ => Counterpart.refl _

/-- Statements that export a handler with and without wrappers match where there is one `as` at most, as
    far as the handlers and what the name is bound to are related. -/
theorem statementsMatch_wrapped {Entries : String × Binding → String × Binding → Prop}
    {Handlers : FunctionDeclaration → FunctionDeclaration → Prop} (hone : assertions ws ≤ 1)
    (hname : Entries (name, .value (value (bare accessors) f)) (name, .value (value ws f)))
    (hhandler : Handlers (handler name (bare accessors) f) (handler name ws f)) :
    StatementsMatch Entries Handlers (statement name (bare accessors) f)
      (statement name ws f) where
  names := by
    rw [statementNames_wrapped, statementNames_wrapped]
    exact .cons hname .nil
  declared := by
    rw [declaredLocally_wrapped, declaredLocally_wrapped, declaration, declaration, if_pos hone]
    exact .cons ⟨rfl, .function hhandler⟩ .nil
  exported := by
    rw [exportedWithDeclaration_wrapped, exportedWithDeclaration_wrapped, declaration, declaration,
      if_pos hone]
    exact .cons ⟨rfl, .function hhandler⟩ .nil
  clauses := by rw [localClauses_wrapped, localClauses_wrapped]

end Wrapped

end RouteAtlas.Handler
