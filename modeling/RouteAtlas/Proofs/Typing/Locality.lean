/-
  RouteAtlas: names of a module in its functions.

  A function and its module have one list of names, so what a name of the module stands for is inferred
  with the names of the function that uses it.

  * `Meets scope name resolving call`: a name is looked up on the way to the answer to a call;
  * `answer_eq_of_meets`: scopes that agree on the names that a call meets give it the same answer;
  * `module_name_stable`: a name has the same type in all functions that bind none of the names which are
    met from it in the module alone;
  * `local_reaches_constant`: in a function that binds one of these it can have another type.
-/
import RouteAtlas.Proofs.Typing.Asking
import RouteAtlas.Proofs.Typing.Shadowing

namespace RouteAtlas.Typing

open RouteAtlas.Code RouteAtlas.Text
open Context (answer)

/-! ## Names on the way to an answer -/

/-- A name is looked up on the way to the answer to a call. -/
inductive Meets (scope : Scope) (name : String) : List String → Call → Prop
  | looked {resolving : List String} {call : Call} : call.name? = some name →
      Meets scope name resolving call
  | asked {resolving marks : List String} {call inner : Call} :
      .call marks inner ∈ (call.rule resolving scope).asks → Meets scope name marks inner →
      Meets scope name resolving call

theorem meets_iff {scope : Scope} {name : String} {resolving : List String} {call : Call} :
    Meets scope name resolving call ↔ call.name? = some name ∨ ∃ marks inner,
      .call marks inner ∈ (call.rule resolving scope).asks ∧ Meets scope name marks inner := by
  constructor
  · rintro (h | ⟨hq, h⟩)
    · exact Or.inl h
    · exact Or.inr ⟨_, _, hq, h⟩
  · rintro (h | ⟨_, _, hq, h⟩)
    · exact .looked h
    · exact .asked hq h

/-- What is met from a call whose rule asks one question. -/
theorem meets_of_single {scope : Scope} {name : String} {resolving marks : List String}
    {call inner : Call} (hasks : (call.rule resolving scope).asks = [.call marks inner]) :
    Meets scope name resolving call ↔ call.name? = some name ∨ Meets scope name marks inner := by
  rw [meets_iff, hasks]
  constructor
  · rintro (h | ⟨_, _, hq, h⟩)
    · exact Or.inl h
    · cases List.mem_singleton.1 hq
      exact Or.inr h
  · rintro (h | h)
    · exact Or.inl h
    · exact Or.inr ⟨_, _, List.mem_singleton_self _, h⟩

/-- **Scopes that agree on the names that a call meets give it the same answer.** -/
theorem answer_eq_of_meets {s s' : Scope} : ∀ (limit : Nat) (resolving : List String) (call : Call),
    (∀ name, Meets s name resolving call → s.find? name = s'.find? name) →
      answer s limit resolving call = answer s' limit resolving call := by
  refine @answer_induction s _ (fun _ _ _ => rfl) fun limit resolving call hasked hagree => ?_
  have hrule : call.rule resolving s = call.rule resolving s' :=
    rule_congr (fun name hname => hagree name (.looked hname)) resolving
  rw [answer_eq, answer_eq, ← hrule]
  refine Rule.apply_congr fun q hq => ?_
  cases q with
  | known type => trivial
  | call marks inner => exact hasked _ hq fun name hname => hagree name (.asked hq hname)

/-! ## Functions of a module -/

variable {root : Node} {n : String}

/-- A function that binds none of the names that a call meets in the module answers it like the
    module. -/
theorem answer_of_unbound {function : Option Node} {resolving : List String} {call : Call}
    (h : ∀ f ∈ function, ∀ name, Meets (Scope.of root none) name resolving call → ¬ Registers f name)
    (limit : Nat) :
    answer (Scope.of root none) limit resolving call =
      answer (Scope.of root function) limit resolving call := by
  cases function with
  | none => rfl
  | some f =>
    exact answer_eq_of_meets limit resolving call fun name hname =>
      (find?_of_not_registers (h f rfl name hname)).symm

/-- A call of a name. -/
structure IsCallOf (n : String) (call : Node) : Prop where
  kind : call.kind = .call
  callee : ∃ callee, (call.field? .callee).map Node.unwrap = some callee ∧
    callee.kind = .identifier ∧ callee.text = n

/-- What is met from an expression inside wrappers is met from the wrapped expression. -/
theorem meets_of_unwrap {scope : Scope} {name : String} {resolving : List String} (e : Node) :
    Meets scope name resolving (.infer e.unwrap) → Meets scope name resolving (.infer e) := by
  induction e using Node.unwrap.induct with
  | case1 e hw hnil => rw [Node.unwrap, if_pos hw, hnil]; exact id
  | case2 e hw c cs he ih =>
    have hhead : e.named.head? = some c := by simp [he]
    rw [Node.unwrap_of_head hw hhead]
    refine fun h => .asked ?_ (ih h)
    have hfirst : Question.first resolving e any = .call resolving (.infer c) := by
      simp [Question.first, hhead]
    show _ ∈ (expressionRule resolving e).asks
    rw [expressionRule_of_isWrapper resolving hw, hfirst]
    exact List.mem_singleton_self _
  | case3 e hw =>
    rw [Node.unwrap_of_not_isWrapper (by simpa using hw)]
    exact id

/-- What is met from the type of a function is met from the function. -/
theorem meets_of_returnType {scope : Scope} {name : String} {resolving : List String} {f : Node}
    (h : Meets scope name resolving (.returnType f)) :
    Meets scope name resolving (.functionType f) :=
  .asked (List.mem_singleton_self _) h

theorem meets_of_functionType {scope : Scope} {name : String} {resolving : List String} {f : Node}
    (hf : f.kind.isFunction = true) (h : Meets scope name resolving (.functionType f)) :
    Meets scope name resolving (.infer f) := by
  refine .asked ?_ h
  show _ ∈ (expressionRule resolving f).asks
  unfold expressionRule
  revert hf
  cases f.kind <;> simp [Kind.isFunction, Rule.one]

/-- What is met from the function that a name stands for is met from the name. -/
theorem meets_of_callable {scope : Scope} {name : String} {f : Node}
    (hf : scope.callable? n = some f) (h : Meets scope name [n] (.returnType f)) :
    Meets scope name [] (.resolve n) := by
  have asked : ∀ inner, .call [n] inner ∈ (Call.rule [] scope (.resolve n)).asks →
      Meets scope name [n] inner → Meets scope name [] (.resolve n) := fun _ => .asked
  unfold Scope.callable? at hf
  split at hf
  · rename_i f' hb
    cases hf
    refine asked (.functionType f) ?_ (meets_of_returnType h)
    simp [Call.rule, nameRule, hb, Rule.one]
  · rename_i e hb
    split at hf
    · rename_i hfunction
      cases hf
      refine asked (.infer e) ?_
        (meets_of_unwrap e (meets_of_functionType hfunction (meets_of_returnType h)))
      simp [Call.rule, nameRule, hb, Rule.one]
    · cases hf
  · cases hf

/-- What a call of a name meets is met from the name. -/
theorem meets_of_call {scope : Scope} {name : String} {call : Node} (hcall : IsCallOf n call)
    (h : Meets scope name [] (.infer call)) : Meets scope name [] (.resolve n) := by
  obtain ⟨callee, hc, hk, rfl⟩ := hcall.callee
  have hrule : (Call.rule [] scope (.infer call)).asks = [.call [] (.callType call)] := by
    simp [Call.rule, expressionRule, hcall.kind, Rule.one]
  obtain h | h := (meets_of_single hrule).1 h
  · cases h
  cases h with
  | looked h =>
    simp only [Call.name?, hc, hk, beq_self_eq_true, if_true, Option.some.injEq] at h
    exact .looked (congrArg some h)
  | asked hq h =>
    have hcalled : (callRule [] scope call).Sat fun marks inner =>
        Meets scope name marks inner → Meets scope name [] (.resolve callee.text) :=
      sat_callRule fun callee' f hc' hf => by
        rw [hc] at hc'
        cases hc'
        exact meets_of_callable hf
    exact hcalled _ hq h

/-- **A name of a module has one type for all functions that leave it alone.**  If two functions of a
    module bind none of the names that are met from a name in the module, the name itself among them,
    then the name has the same type in both, and so has every call of it.  Either can be missing, which
    is the module alone. -/
theorem module_name_stable {function function' : Option Node}
    (h : ∀ f, f ∈ function ∨ f ∈ function' → ∀ name,
      Meets (Scope.of root none) name [] (.resolve n) → ¬ Registers f name) (limit : Nat) :
    (Scope.of root function).typeOfName limit n = (Scope.of root function').typeOfName limit n ∧
    ∀ call, IsCallOf n call →
      (Scope.of root function).typeOf limit call = (Scope.of root function').typeOf limit call := by
  have hname : ∀ g : Option Node, (∀ f ∈ g, f ∈ function ∨ f ∈ function') →
      (Scope.of root none).typeOfName limit n = (Scope.of root g).typeOfName limit n := fun g hg =>
    answer_of_unbound (fun f hf => h f (hg f hf)) limit
  have hcall : ∀ g : Option Node, (∀ f ∈ g, f ∈ function ∨ f ∈ function') → ∀ call,
      IsCallOf n call → (Scope.of root none).typeOf limit call = (Scope.of root g).typeOf limit call :=
    fun g hg call hc => answer_of_unbound
      (fun f hf name hm => h f (hg f hf) name (meets_of_call hc hm)) limit
  refine ⟨?_, fun call hc => ?_⟩
  · rw [← hname function fun _ => Or.inl, ← hname function' fun _ => Or.inr]
  · rw [← hcall function (fun _ => Or.inl) call hc, ← hcall function' (fun _ => Or.inr) call hc]

/-- A handler that declares a variable with the value one. -/
def handlerWith (handler variable_ : String) : Node :=
  .planted .functionDeclaration (some .declaration) "" [
    .planted .identifier (some .name) handler [],
    .planted .parameters (some .parameters) "()" [],
    .planted .block (some .body) "" [
      .planted .variableDeclaration none "" [
        .planted .declarator none "" [
          .planted .identifier (some .name) variable_ [],
          .planted .number (some .value) "1" []]]]]

/-- A function that returns a name. -/
def functionReturning (function name : String) : Node :=
  .planted .functionDeclaration none "" [
    .planted .identifier (some .name) function [],
    .planted .parameters (some .parameters) "()" [],
    .planted .block (some .body) "" [
      .planted .returnStatement none "" [.planted .identifier none name []]]]

/-- A module with a string `x`, a constant `y` that is `x`, a function `label` that returns `y`, and two
    handlers: `GET` has a number `x` of its own, and `POST` a number `z`. -/
def sharedModule : Node :=
  .planted .program none "" [
    .planted .variableDeclaration none "" [
      .planted .declarator none "" [
        .planted .identifier (some .name) "x" [],
        .planted .writtenType (some .type) ": string" [.planted .typeText none "string" []]]],
    .planted .variableDeclaration none "" [
      .planted .declarator none "" [
        .planted .identifier (some .name) "y" [],
        .planted .identifier (some .value) "x" []]],
    functionReturning "label" "y",
    .planted .exportStatement none "" [handlerWith "GET" "x"],
    .planted .exportStatement none "" [handlerWith "POST" "z"]]

theorem registers_handlerWith (handler variable_ name : String) :
    Registers (handlerWith handler variable_) name ↔ variable_ = name := by
  have hbindings : functionBindings (handlerWith handler variable_) =
      [(variable_, .value (.planted .number (some .value) "1" []))] := by
    unfold functionBindings
    rw [Node.descendants_eq_inner]
    rfl
  rw [← registers_iff, hbindings, binds_singleton]

/-- A call of `label`. -/
def labelCall : Node :=
  .planted .call none "label()" [.planted .identifier (some .callee) "label" []]

/-- `POST` binds none of the names `label`, `y` and `x`, which are met from `label`. -/
theorem module_name_stable_chain :
    (∀ name, Meets (Scope.of sharedModule none) name [] (.resolve "label") →
      ¬ Registers (handlerWith "POST" "z") name) ∧
    IsCallOf "label" labelCall ∧
    (Scope.of sharedModule (some (handlerWith "POST" "z"))).typeOfName depthLimit "label" =
      some "() => string" ∧
    (Scope.of sharedModule (some (handlerWith "POST" "z"))).typeOf depthLimit labelCall =
      some "string" := by
  have hmeets : ∀ name, Meets (Scope.of sharedModule none) name [] (.resolve "label") →
      name = "label" ∨ name = "y" ∨ name = "x" := by
    intro name h
    -- Each rule on the way from `label` to `x` asks one question.
    have hlabel : (Call.rule [] (Scope.of sharedModule none) (.resolve "label")).asks =
      [.call ["label"] (.functionType (functionReturning "label" "y"))] := by cbv
    have hfunction : (Call.rule ["label"] (Scope.of sharedModule none)
      (.functionType (functionReturning "label" "y"))).asks =
      [.call ["label"] (.returnType (functionReturning "label" "y"))] := by cbv
    have hreturn : (Call.rule ["label"] (Scope.of sharedModule none)
      (.returnType (functionReturning "label" "y"))).asks =
      [.call ["label"] (.infer (.planted .identifier none "y" []))] := by cbv
    have hinner : (Call.rule ["label"] (Scope.of sharedModule none)
      (.infer (.planted .identifier none "y" []))).asks = [.call ["label"] (.resolve "y")] := by cbv
    have hy : (Call.rule ["label"] (Scope.of sharedModule none) (.resolve "y")).asks =
      [.call ["y", "label"] (.infer (.planted .identifier (some .value) "x" []))] := by cbv
    have hvalue : (Call.rule ["y", "label"] (Scope.of sharedModule none)
      (.infer (.planted .identifier (some .value) "x" []))).asks =
      [.call ["y", "label"] (.resolve "x")] := by cbv
    have hx : (Call.rule ["y", "label"] (Scope.of sharedModule none) (.resolve "x")).asks = [] := by
      cbv
    rw [meets_of_single hlabel, meets_of_single hfunction, meets_of_single hreturn,
      meets_of_single hinner, meets_of_single hy, meets_of_single hvalue, meets_iff, hx] at h
    simpa [Call.name?, eq_comm] using h
  have hfree : ∀ name, Meets (Scope.of sharedModule none) name [] (.resolve "label") →
      ¬ Registers (handlerWith "POST" "z") name := by
    intro name h
    rw [registers_handlerWith]
    rcases hmeets name h with rfl | rfl | rfl <;> decide
  have hcall : IsCallOf "label" labelCall := ⟨rfl, _, by cbv, rfl, rfl⟩
  obtain ⟨hname, hcalls⟩ :=
    @module_name_stable sharedModule "label" (some (handlerWith "POST" "z")) none
      (fun f hf name h => by
        obtain rfl : handlerWith "POST" "z" = f := by simpa using hf
        exact hfree name h) depthLimit
  exact ⟨hfree, hcall, hname.trans (by cbv), (hcalls labelCall hcall).trans (by cbv)⟩

/-- A local name of a handler is met on the way from a name of the module, and changes its type: `y` is
    a constant of the module that `GET` does not bind, a string in the module and a number in `GET`. -/
theorem local_reaches_constant :
    handlerWith "GET" "x" ∈ sharedModule.preorder ∧
    (∃ e, (Scope.of sharedModule none).find? "y" = some (.value e)) ∧
    ¬ Registers (handlerWith "GET" "x") "y" ∧
    (Scope.of sharedModule none).typeOfName depthLimit "y" = some "string" ∧
    (Scope.of sharedModule (some (handlerWith "GET" "x"))).typeOfName depthLimit "y" =
      some "number" := by
  have hexport : .planted .exportStatement none "" [handlerWith "GET" "x"] ∈ sharedModule.children := by
    simp [sharedModule, Node.planted, Node.children]
  refine ⟨?_, ⟨_, by cbv⟩, ?_, by cbv, by cbv⟩
  · exact Node.child_mem_preorder (Node.mem_preorder_of_mem_children hexport) (List.mem_singleton_self _)
  · rw [registers_handlerWith]; decide

end RouteAtlas.Typing
