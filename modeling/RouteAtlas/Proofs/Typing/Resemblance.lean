/-
  RouteAtlas: rules that resemble each other.

  Calls in two scopes have the same answer where their rules ask for calls that correspond to each other,
  and make the same type of the answers.

  * `Rule.Resembles R answers r r'`: the rules ask for calls that `R` relates, and give the same for the
    answers that there are;
  * `answer_resembles`: calls that are related have the same answer, if the rules of related calls
    resemble each other;
  * `Call.Resembles E` and `Scope.Resembles E` carry a relation between nodes over to calls and to scopes.
-/
import RouteAtlas.Proofs.Each
import RouteAtlas.Proofs.Typing.Asking

namespace RouteAtlas.Typing

open RouteAtlas.Code RouteAtlas.Text
open Context (answer)

/-! ## Rules -/

/-- Two questions have the same known answer, or are for related calls. -/
inductive Question.Resembles (R : Call → Call → Prop) : Question → Question → Prop where
  | known (type : String) : Question.Resembles R (.known type) (.known type)
  | call {c c' : Call} (resolving : List String) : R c c' →
      Question.Resembles R (.call resolving c) (.call resolving c')

/-- Two rules ask for related calls, and give the same type for the answers that the first one gets. -/
structure Rule.Resembles (R : Call → Call → Prop) (answers : Answers) (r r' : Rule) : Prop where
  asks : List.Forall₂ (Question.Resembles R) r.asks r'.asks
  gives : ∀ types, r.asks.mapM (Question.answered answers) = some types →
    r.gives types = r'.gives types

section
variable {R : Call → Call → Prop} {answers : Answers}

theorem Rule.Resembles.plain (type : String) : (Rule.plain type).Resembles R answers (.plain type) :=
  ⟨.nil, fun _ _ => rfl⟩

theorem Rule.Resembles.one {q q' : Question} (h : q.Resembles R q') (f : String → String) :
    (Rule.one q f).Resembles R answers (.one q' f) :=
  ⟨.cons h .nil, fun _ _ => rfl⟩

theorem Rule.Resembles.two {p p' q q' : Question} (hp : p.Resembles R p') (hq : q.Resembles R q')
    (f : String → String → String) : (Rule.two p q f).Resembles R answers (.two p' q' f) :=
  ⟨.cons hp (.cons hq .nil), fun _ _ => rfl⟩

/-- What holds of all that a rule asks for holds besides of what its counterpart asks for. -/
theorem Rule.Resembles.answered {r r' : Rule} {answers' : Answers} (h : r.Resembles R answers r')
    (hasked : r.Sat fun resolving c => ∀ c', R c c' → answers resolving c = answers' resolving c') :
    r.apply answers = r'.apply answers' := by
  have heach : List.Forall₂ (fun q q' => q.answered answers = Question.answered answers' q')
      r.asks r'.asks := by
    refine ((List.forall₂_and_left _ _).2 ⟨hasked, h.asks⟩).imp fun q q' hq => ?_
    obtain ⟨hsat, hq⟩ := hq
    cases hq with
    | known type => rfl
    | call resolving hc => exact hsat _ hc
  unfold Rule.apply
  rw [← mapM_congr₂ heach]
  cases ha : r.asks.mapM (Question.answered answers) with
  | none => rfl
  | some types => exact congrArg some (h.gives types ha)

/-- **Related calls have the same answer** if they take the same of the limit and the rules of related
    calls resemble each other. -/
theorem answer_resembles {s s' : Scope} (hcost : ∀ c c', R c c' → c.cost = c'.cost)
    (hrule : ∀ limit resolving c c', R c c' →
      (c.rule resolving s).Resembles R (answer s limit) (c'.rule resolving s')) :
    ∀ (limit : Nat) (resolving : List String) (c : Call),
      ∀ c', R c c' → answer s limit resolving c = answer s' limit resolving c' := by
  refine @answer_induction s _ (fun resolving e c' hc => ?_)
    fun limit resolving c hasked c' hc => ?_
  · have hone : c'.cost ≠ 0 := by rw [← hcost _ _ hc]; exact Nat.one_ne_zero
    obtain ⟨e', rfl⟩ := infer_of_cost hone
    rfl
  · rw [answer_eq, hcost c c' hc, answer_eq]
    exact (hrule limit resolving c c' hc).answered hasked

end

/-! ## Calls and scopes -/

/-- Two calls are of the same rule, for nodes that are related. -/
inductive Call.Resembles (E : Node → Node → Prop) : Call → Call → Prop where
  | infer {e e' : Node} : E e e' → Call.Resembles E (.infer e) (.infer e')
  | resolve (name : String) : Call.Resembles E (.resolve name) (.resolve name)
  | functionType {f f' : Node} : f.kind.isFunction = true → E f f' →
      Call.Resembles E (.functionType f) (.functionType f')
  | returnType {f f' : Node} : f.kind.isFunction = true → E f f' →
      Call.Resembles E (.returnType f) (.returnType f')
  | callType {n n' : Node} : n.kind = .call → E n n' → Call.Resembles E (.callType n) (.callType n')
  | memberType {n n' : Node} : n.kind = .member → E n n' →
      Call.Resembles E (.memberType n) (.memberType n')

/-- The same is known of two names, up to nodes that are related. -/
inductive Binding.Resembles (E : Node → Node → Prop) : Binding → Binding → Prop where
  | annotated (type : String) : Binding.Resembles E (.annotated type) (.annotated type)
  | member (type key : String) : Binding.Resembles E (.member type key) (.member type key)
  | value {e e' : Node} : E e e' → Binding.Resembles E (.value e) (.value e')
  | function {f f' : Node} : f.kind.isFunction = true → E f f' →
      Binding.Resembles E (.function f) (.function f')
  | untyped : Binding.Resembles E .untyped .untyped

/-- The same is known of every name in two scopes, up to nodes that are related. -/
def Scope.Resembles (E : Node → Node → Prop) (s s' : Scope) : Prop :=
  ∀ name, Option.Rel (Binding.Resembles E) (s.find? name) (s'.find? name)

/-- Two lists bind the same names in the same order, up to nodes that are related. -/
def EntriesResemble (E : Node → Node → Prop) : Scope → Scope → Prop :=
  List.Forall₂ fun entry entry' => entry.1 = entry'.1 ∧ Binding.Resembles E entry.2 entry'.2

section
variable {E : Node → Node → Prop} {s s' : Scope}

theorem Call.Resembles.cost {c c' : Call} (h : c.Resembles E c') : c.cost = c'.cost := by
  cases h <;> rfl

theorem Binding.Resembles.refl (hE : ∀ n, E n n) {b : Binding}
    (hb : ∀ f, b = .function f → f.kind.isFunction = true) : Binding.Resembles E b b := by
  cases b with
  | annotated type => exact .annotated type
  | member type key => exact .member type key
  | value e => exact .value (hE e)
  | function f => exact .function (hb f rfl) (hE f)
  | untyped => exact .untyped

/-- A name is found in two lists together, and what it is bound to is related as under that name. -/
theorem lookup_rel {R : String → Binding → Binding → Prop}
    (h : List.Forall₂ (fun e e' => e.1 = e'.1 ∧ R e.1 e.2 e'.2) s s') (name : String) :
    Option.Rel (R name) (s.lookup name) (s'.lookup name) := by
  induction h with
  | nil => exact .none
  | @cons entry entry' _ _ he _ ih =>
    obtain ⟨n, b⟩ := entry
    obtain ⟨n', b'⟩ := entry'
    obtain ⟨rfl, hb⟩ := he
    rw [List.lookup_cons, List.lookup_cons]
    by_cases hname : name = n
    · subst hname
      rw [beq_self_eq_true]
      exact .some hb
    · rw [beq_eq_false_iff_ne.2 hname]
      exact ih

theorem EntriesResemble.append {t t' : Scope} (h : EntriesResemble E s s')
    (ht : EntriesResemble E t t') : EntriesResemble E (s ++ t) (s' ++ t') :=
  List.rel_append h ht

/-- What functions and modules bind is found together in the scopes of the functions. -/
theorem find?_rel {R : String → Binding → Binding → Prop} {root root' f f' : Node}
    (hlocal : List.Forall₂ (fun e e' => e.1 = e'.1 ∧ R e.1 e.2 e'.2) (functionBindings f)
      (functionBindings f'))
    (hmodule : List.Forall₂ (fun e e' => e.1 = e'.1 ∧ R e.1 e.2 e'.2) (moduleBindings root)
      (moduleBindings root')) (name : String) :
    Option.Rel (R name) ((Scope.of root (some f)).find? name)
      ((Scope.of root' (some f')).find? name) := by
  refine lookup_rel (List.rel_filter ?_ (List.rel_append hlocal hmodule)) name
  intro entry entry' he
  simp only [he.1]

/-- Scopes of functions with the same names resemble each other. -/
theorem Scope.Resembles.of_entries {root root' f f' : Node}
    (hlocal : EntriesResemble E (functionBindings f) (functionBindings f'))
    (hmodule : EntriesResemble E (moduleBindings root) (moduleBindings root')) :
    Scope.Resembles E (Scope.of root (some f)) (Scope.of root' (some f')) :=
  find?_rel hlocal hmodule

end

end RouteAtlas.Typing
