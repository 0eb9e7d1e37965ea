/-
  RouteAtlas: what the rules of inference ask for.

  * `Rule.Sat P r`: a statement holds of all calls that a rule asks for;
  * `answer_induction`: a statement holds of all calls if it holds of each call whose rule asks only for
    calls that it holds of;
  * `within_of_asked`: a call within a module asks only for calls within it;
  * `rule_congr`: a rule reads its scope at one name at most, which is `Call.name?`.
-/
import RouteAtlas.Proofs.Recording
import RouteAtlas.Proofs.Typing.Rules

namespace RouteAtlas.Typing

open RouteAtlas.Code RouteAtlas.Text

/-! ## Calls that a rule asks for -/

/-- A statement holds of the call that a question is for. -/
def Question.Sat (P : List String → Call → Prop) : Question → Prop
  | .known _ => True
  | .call resolving c => P resolving c

/-- A statement holds of all calls that a rule asks for. -/
def Rule.Sat (P : List String → Call → Prop) (r : Rule) : Prop :=
  ∀ q ∈ r.asks, q.Sat P

section
variable {P : List String → Call → Prop} {resolving : List String}

@[simp] theorem sat_known (type : String) : (Question.known type).Sat P ↔ True := Iff.rfl

@[simp] theorem sat_call (c : Call) : (Question.call resolving c).Sat P ↔ P resolving c := Iff.rfl

@[simp] theorem sat_field (n : Node) (role : Role) :
    (Question.field resolving n role).Sat P ↔ ∀ c ∈ n.field? role, P resolving (.infer c) := by
  unfold Question.field
  cases n.field? role <;> simp

@[simp] theorem sat_first (n : Node) (otherwise : String) :
    (Question.first resolving n otherwise).Sat P ↔ ∀ c ∈ n.named.head?, P resolving (.infer c) := by
  unfold Question.first
  cases n.named.head? <;> simp

@[simp] theorem Rule.sat_plain (type : String) : (Rule.plain type).Sat P ↔ True := by
  simp [Rule.Sat, Rule.plain]

@[simp] theorem Rule.sat_one (q : Question) (f : String → String) :
    (Rule.one q f).Sat P ↔ q.Sat P := by
  simp [Rule.Sat, Rule.one]

@[simp] theorem Rule.sat_two (q q' : Question) (f : String → String → String) :
    (Rule.two q q' f).Sat P ↔ q.Sat P ∧ q'.Sat P := by
  simp [Rule.Sat, Rule.two]

theorem Rule.sat_of_forall {r : Rule} (h : ∀ resolving c, P resolving c) : r.Sat P := fun q _ =>
  match q with
  | .known _ => trivial
  | .call _ _ => h _ _

theorem Rule.Sat.imp {Q : List String → Call → Prop} {r : Rule} (h : r.Sat P)
    (himp : ∀ resolving c, P resolving c → Q resolving c) : r.Sat Q := by
  intro q hq
  cases q with
  | known type => trivial
  | call resolving c => exact himp _ _ (h _ hq)

/-- A rule gives the same for answers that are the same to all that it asks for. -/
theorem Rule.apply_congr {answers answers' : Answers} {r : Rule}
    (h : r.Sat fun resolving c => answers resolving c = answers' resolving c) :
    r.apply answers = r.apply answers' := by
  have hall : ∀ q ∈ r.asks, q.answered answers = q.answered answers' := by
    intro q hq
    cases q with
    | known type => rfl
    | call resolving c => exact h _ hq
  unfold Rule.apply
  rw [Recording.mapM_congr hall]

theorem sat_returnRule {f : Node} (hbody : ∀ body ∈ f.field? .body, P resolving (.infer body))
    (hreturns : ∀ s ∈ f.ownReturns, ∀ e ∈ s.named.head?, P resolving (.infer e)) :
    (returnRule resolving f).Sat P := by
  unfold returnRule
  split
  · simp
  · split
    · simp
    · rename_i body hb
      split
      · simpa using hbody body hb
      · split
        · simp
        · rename_i returns _
          intro q hq
          obtain ⟨s, hs, rfl⟩ := List.mem_map.1 hq
          exact (sat_first s _).2 (hreturns s hs)

theorem sat_literalRule {key : String} (hname : P resolving (.resolve key)) :
    ∀ {ms : List Node}, (∀ m ∈ ms, ∀ e ∈ m.field? .value, P resolving (.infer e)) →
      (literalRule resolving key ms).Sat P
  | [], _ => by simp [literalRule]
  | m :: ms, h => by
    unfold literalRule
    split
    · simpa using h m (by simp)
    · split
      · simpa using hname
      · exact sat_literalRule hname fun m' hm' => h m' (by simp [hm'])

theorem sat_nameRule {scope : Scope} {name : String}
    (hvalue : ∀ e, scope.find? name = some (.value e) → P (name :: resolving) (.infer e))
    (hfunction : ∀ f, scope.find? name = some (.function f) →
      P (name :: resolving) (.functionType f)) :
    (nameRule resolving scope name).Sat P := by
  unfold nameRule
  split
  · simp
  · split
    · simp
    · simp
    · rename_i e he; simpa using hvalue e he
    · rename_i f hf; simpa using hfunction f hf
    · simp
    · simp

theorem sat_callRule {scope : Scope} {n : Node}
    (h : ∀ callee f, (n.field? .callee).map Node.unwrap = some callee →
      scope.callable? callee.text = some f → P (callee.text :: resolving) (.returnType f)) :
    (callRule resolving scope n).Sat P := by
  unfold callRule
  split
  · simp
  · rename_i callee hc
    split
    · split
      · simp
      · split
        · simp
        · rename_i f hf
          split
          · simp
          · simpa using h callee f hc hf
    · simp
    · simp

theorem sat_memberRule {scope : Scope} {n : Node} (hname : ∀ marks key, P marks (.resolve key))
    (hobject : ∀ object ∈ n.field? .object, P resolving (.infer object.unwrap))
    (hplain : ∀ object ∈ n.field? .object, ∀ m ∈ object.unwrap.named, ∀ e ∈ m.field? .value,
      P resolving (.infer e))
    (hnamed : ∀ name literal, scope.value? name = some literal →
      ∀ m ∈ literal.named, ∀ e ∈ m.field? .value, ∀ marks, P marks (.infer e)) :
    (memberRule resolving scope n).Sat P := by
  unfold memberRule
  simp only
  split
  · simp
  · cases ho : n.field? .object with
    | none => simp
    | some object =>
      have hinferred : (inferredMemberRule resolving object.unwrap (n.fieldText .property)).Sat P := by
        simpa [inferredMemberRule] using hobject object ho
      simp only [Option.map_some]
      split
      · unfold nameMemberRule
        simp only
        split
        · rename_i literal hv
          split
          · split
            · simp
            · exact sat_literalRule (hname _ _) fun m hm e he => hnamed _ literal hv m hm e he _
          · exact hinferred
        · exact hinferred
      · split
        · exact sat_literalRule (hname _ _) (hplain object ho)
        · exact hinferred

theorem sat_objectRule {n : Node} (hname : ∀ name, P resolving (.resolve name))
    (hvalue : ∀ m ∈ n.named, ∀ e ∈ m.field? .value, P resolving (.infer e))
    (hmethod : ∀ m ∈ n.named, P resolving (.functionType m)) :
    (objectRule resolving n).Sat P := by
  unfold objectRule
  intro q hq
  obtain ⟨⟨key, q⟩, hshown, rfl⟩ := List.mem_map.1 hq
  obtain ⟨m, hm, hq⟩ := List.mem_filterMap.1 hshown
  unfold memberQuestion at hq
  split at hq
  · obtain ⟨_, -, hq⟩ := Option.map_eq_some_iff.1 hq
    cases hq
    simpa using hvalue m hm
  · cases hq; exact hname _
  · obtain ⟨_, -, hq⟩ := Option.map_eq_some_iff.1 hq
    cases hq
    exact hmethod m hm
  · cases hq

/-- The rule for an expression asks for its parts, for names, and for the expression itself as what it
    is. -/
theorem sat_expressionRule {n : Node} (hchild : ∀ c ∈ n.children, P resolving (.infer c))
    (hname : ∀ name, P resolving (.resolve name))
    (hvalue : ∀ m ∈ n.children, ∀ e ∈ m.field? .value, P resolving (.infer e))
    (hmethod : ∀ m ∈ n.children, P resolving (.functionType m))
    (hfunction : P resolving (.functionType n)) (hcall : P resolving (.callType n))
    (hmember : n.kind = .member → P resolving (.memberType n)) :
    (expressionRule resolving n).Sat P := by
  have hfield : ∀ role, ∀ c ∈ n.field? role, P resolving (.infer c) := fun role c hc =>
    hchild c (Node.mem_children_of_field? hc)
  have hnamed : ∀ c ∈ n.named, P resolving (.infer c) := fun c hc =>
    hchild c (Node.mem_children_of_mem_named hc)
  have hfirst : ∀ c ∈ n.named.head?, P resolving (.infer c) := fun c hc =>
    hnamed c (List.mem_of_head? hc)
  have hself : (Rule.one (.call resolving (.functionType n)) id).Sat P := by simpa using hfunction
  unfold expressionRule
  cases hk : n.kind with
  | identifier =>
    simp only
    split
    · simp
    · split
      · simp
      · simpa using hname n.text
  | object =>
    exact sat_objectRule hname (fun m hm => hvalue m (Node.mem_children_of_mem_named hm))
      fun m hm => hmethod m (Node.mem_children_of_mem_named hm)
  | array =>
    show (arrayRule resolving n).Sat P
    unfold arrayRule
    split
    · simp
    · rename_i es _
      intro q hq
      obtain ⟨e, he, rfl⟩ := List.mem_map.1 hq
      exact hnamed e (List.mem_filter.1 (List.mem_filter.1 he).1).1
  | asExpression =>
    show (assertedRule resolving n).Sat P
    unfold assertedRule
    split
    · simp
    · simpa using hfirst
  | binary =>
    show (binaryRule resolving n).Sat P
    unfold binaryRule
    simp only
    split
    · simp
    · simpa using ⟨hfield .left, hfield .right⟩
  | sequence =>
    simp only
    split
    · rename_i e he; simpa using hnamed e (List.mem_of_getLast? he)
    · simp
  | ternary => simpa using ⟨hfield .consequence, hfield .alternative⟩
  | assignment => simpa using hfield .right
  | subscript => simpa using hfield .object
  | parenthesized => simpa using hfirst
  | satisfies => simpa using hfirst
  | nonNull => simpa using hfirst
  | await => simpa using hfirst
  | call => simpa using hcall
  | member => simpa using hmember hk
  | functionDeclaration => exact hself
  | generatorDeclaration => exact hself
  | functionExpression => exact hself
  | generatorExpression => exact hself
  | arrowFunction => exact hself
  | methodDefinition => exact hself
  | _ => simp

end

/-! ## Induction over calls -/

/-- The calls that a call asks for without taking from the limit have a lower rank. -/
def Call.rank : Call → Nat
  | .infer _ => 0
  | .returnType _ => 1
  | .functionType _ => 2
  | .resolve _ => 3
  | .callType _ => 3
  | .memberType _ => 4

theorem rank_lt_of_asked {scope : Scope} {resolving : List String} {call : Call}
    (hcost : call.cost = 0) : (call.rule resolving scope).Sat fun _ inner => inner.rank < call.rank := by
  cases call with
  | infer n => cases hcost
  | resolve name => exact sat_nameRule (by simp [Call.rank]) (by simp [Call.rank])
  | functionType f => simp [Call.rule, functionRule, Call.rank]
  | returnType f => exact sat_returnRule (by simp [Call.rank]) (by simp [Call.rank])
  | callType n => exact sat_callRule (by simp [Call.rank])
  | memberType n =>
    exact sat_memberRule (by simp [Call.rank]) (by simp [Call.rank]) (by simp [Call.rank])
      (by simp [Call.rank])

theorem infer_of_cost {call : Call} (h : call.cost ≠ 0) : ∃ e, call = .infer e := by
  cases call with
  | infer e => exact ⟨e, rfl⟩
  | _ => exact absurd rfl h

/-- **Induction over calls.**  A statement holds of all calls at every limit if it holds of a type that
    is too deep, and of each call whose rule asks only for calls that it holds of. -/
theorem answer_induction {scope : Scope} {motive : Nat → List String → Call → Prop}
    (deep : ∀ resolving e, motive 0 resolving (.infer e))
    (step : ∀ limit resolving call, (call.rule resolving scope).Sat (motive limit) →
      motive (limit + call.cost) resolving call) (limit : Nat) :
    ∀ (resolving : List String) (call : Call), motive limit resolving call := by
  -- At one limit, types of expressions come first; the other calls go down in rank.
  have ranked : ∀ limit, (∀ resolving e, motive limit resolving (.infer e)) →
      ∀ rank resolving call, call.rank = rank → motive limit resolving call := by
    intro limit hinfer rank
    induction rank using Nat.strongRecOn with
    | ind rank ih =>
      intro resolving call hrank
      by_cases hcost : call.cost = 0
      · have hlower : (call.rule resolving scope).Sat fun _ inner => inner.rank < call.rank :=
          rank_lt_of_asked hcost
        have h := step limit resolving call
          (hlower.imp fun marks inner hr => ih _ (hrank ▸ hr) marks inner rfl)
        rwa [hcost] at h
      · obtain ⟨e, rfl⟩ := infer_of_cost hcost
        exact hinfer resolving e
  induction limit with
  | zero => exact fun resolving call => ranked 0 deep _ resolving call rfl
  | succ limit ih =>
    have hinfer : ∀ resolving e, motive (limit + 1) resolving (.infer e) := fun resolving e =>
      step limit resolving (.infer e) (Rule.sat_of_forall ih)
    exact fun resolving call => ranked (limit + 1) hinfer _ resolving call rfl

/-! ## Names that are looked up -/

/-- The name that a call looks up, if it does. -/
def Call.name? : Call → Option String
  | .resolve name => some name
  | .callType n =>
    match (n.field? .callee).map Node.unwrap with
    | some callee => if callee.kind == .identifier then some callee.text else none
    | none => none
  | .memberType n =>
    if n.fieldText .property == "length" then none else (accessed? n).map Prod.fst
  | _ => none

/-- **A rule depends on its scope only through the name that the call looks up.** -/
theorem rule_congr {s s' : Scope} {call : Call}
    (h : ∀ name ∈ call.name?, s.find? name = s'.find? name) (resolving : List String) :
    call.rule resolving s = call.rule resolving s' := by
  cases call with
  | resolve name =>
    show nameRule resolving s name = nameRule resolving s' name
    unfold nameRule
    rw [h name rfl]
  | callType n =>
    show callRule resolving s n = callRule resolving s' n
    unfold callRule
    cases hc : (n.field? .callee).map Node.unwrap with
    | none => rfl
    | some callee =>
      simp only
      split
      · rename_i hk
        have hname : s.find? callee.text = s'.find? callee.text :=
          h callee.text (by simp [Call.name?, hc, hk])
        rw [hname, show s.callable? callee.text = s'.callable? callee.text by
          unfold Scope.callable?; rw [hname]]
      · rfl
      · rfl
  | memberType n =>
    show memberRule resolving s n = memberRule resolving s' n
    unfold memberRule
    simp only
    split
    · rfl
    · rename_i hl
      cases ho : (n.field? .object).map Node.unwrap with
      | none => rfl
      | some object =>
        simp only
        split
        · rename_i hk
          have hname : s.find? object.text = s'.find? object.text :=
            h object.text (by simp [Call.name?, accessed?, ho, hk, hl])
          unfold nameMemberRule
          rw [show s.value? object.text = s'.value? object.text by
            unfold Scope.value?; rw [hname]]
        · rfl
  | _ => rfl

/-! ## Calls within a module -/

/-- **A call within a module asks only for calls within it.** -/
theorem within_of_asked {root : Node} {scope : Scope} (hs : ScopeWithin root scope)
    {resolving : List String} {call : Call} (h : call.Within root) :
    (call.rule resolving scope).Sat fun _ inner => inner.Within root := by
  have hvalue : ∀ {n m e : Node}, n ∈ root.preorder → m ∈ n.children → e ∈ m.field? .value →
      e ∈ root.preorder := fun hn hm he =>
    grandchild_mem_preorder hn hm (Node.mem_children_of_field? he)
  cases call with
  | infer n =>
    exact sat_expressionRule (fun c hc => Node.child_mem_preorder h hc) (fun _ => trivial)
      (fun m hm e he => hvalue h hm he) (fun m hm => Node.child_mem_preorder h hm) h h
      fun hk => ⟨h, hk⟩
  | resolve name =>
    exact sat_nameRule (fun e he => hs _ (mem_of_find? he)) fun f hf => hs _ (mem_of_find? hf)
  | functionType f => exact (Rule.sat_one _ _).2 h
  | returnType f =>
    exact sat_returnRule (fun body hb => Node.child_mem_preorder h (Node.mem_children_of_field? hb))
      fun s hs e he => Node.child_mem_preorder (Node.ownReturns_mem_preorder h hs)
        (Node.mem_children_of_mem_named (List.mem_of_head? he))
  | callType n => exact sat_callRule fun callee f _ hf => hs.callable hf
  | memberType n =>
    refine sat_memberRule (fun _ _ => trivial) (fun object ho => object_mem_preorder h.1 ho)
      (fun object ho m hm e he => ?_) fun name literal hv m hm e he _ => ?_
    · exact hvalue (object_mem_preorder h.1 ho) (Node.mem_children_of_mem_named hm) he
    · exact hvalue (hs.value hv) (Node.mem_children_of_mem_named hm) he

end RouteAtlas.Typing
