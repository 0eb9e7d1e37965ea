/-
  RouteAtlas: types of trees that read alike.

  Trees that read alike have the same types in scopes that know the same.  Two functions that are written
  in different ways can stand for each other as well, if they have the same parameters and their return
  rules resemble each other.

  * `Counterpart accessors Twin n n'`: trees that read alike, or functions that are twins;
  * `AreTwins` says what makes twins of functions;
  * the rules of counterparts resemble each other, one lemma for each rule; `rule_resembles` is all of
    them;
  * `answer_counterpart`: calls for counterparts have the same answer.
-/
import RouteAtlas.Proofs.Typing.Alike
import RouteAtlas.Proofs.Typing.Resemblance

namespace RouteAtlas.Typing

open RouteAtlas.Code RouteAtlas.Text
open Context (answer)

/-- Trees that read alike, or functions that are twins. -/
def Counterpart (accessors : List String) (Twin : Node → Node → Prop) (n n' : Node) : Prop :=
  ReadsAlike accessors n n' ∨ Twin n n'

/-- Twins are functions with the same parameters, whose return rules resemble each other. -/
structure AreTwins (accessors : List String) (Twin : Node → Node → Prop) (s : Scope) : Prop where
  functions : ∀ {f f'}, Twin f f' → f.kind.isFunction = true ∧ f'.kind.isFunction = true
  parameters : ∀ {f f'}, Twin f f' → parametersText f = parametersText f'
  returns : ∀ {f f'}, Twin f f' → ∀ limit resolving,
    (returnRule resolving f).Resembles (Call.Resembles (Counterpart accessors Twin)) (answer s limit)
      (returnRule resolving f')

/-- No functions are twins. -/
theorem areTwins_none (accessors : List String) (s : Scope) :
    AreTwins accessors (fun _ _ => False) s :=
  ⟨False.elim, False.elim, False.elim⟩

variable {accessors : List String} {Twin : Node → Node → Prop} {s s' : Scope} {n n' : Node}
  {resolving : List String} {answers : Answers}

theorem ReadsAlike.counterpart (h : ReadsAlike accessors n n') : Counterpart accessors Twin n n' :=
  Or.inl h

theorem not_object_of_isFunction {k : Kind} (h : k.isFunction = true) : (k == .object) = false := by
  revert h
  cases k <;> decide

theorem isWrapper_of_isFunction {k : Kind} (h : k.isFunction = true) : k.isWrapper = false := by
  revert h
  cases k <;> decide

namespace Counterpart

theorem refl (n : Node) : Counterpart accessors Twin n n :=
  Or.inl (ReadsAlike.refl n)

variable (ht : AreTwins accessors Twin s)
include ht

theorem isFunction (h : Counterpart accessors Twin n n') : n.kind.isFunction = n'.kind.isFunction := by
  rcases h with h | h
  · rw [h.kind]
  · rw [(ht.functions h).1, (ht.functions h).2]

/-- Counterparts of something that is no function read alike. -/
theorem alike (h : Counterpart accessors Twin n n') (hn : n.kind.isFunction = false) :
    ReadsAlike accessors n n' := by
  rcases h with h | h
  · exact h
  · rw [(ht.functions h).1] at hn; cases hn

theorem unwrap (h : Counterpart accessors Twin n n') :
    Counterpart accessors Twin n.unwrap n'.unwrap := by
  rcases h with h | h
  · exact Or.inl h.unwrap
  · obtain ⟨hf, hf'⟩ := ht.functions h
    rw [Node.unwrap_of_not_isWrapper (isWrapper_of_isFunction hf),
      Node.unwrap_of_not_isWrapper (isWrapper_of_isFunction hf')]
    exact Or.inr h

theorem parametersText (h : Counterpart accessors Twin n n') (hn : n.kind.isFunction = true) :
    Typing.parametersText n = Typing.parametersText n' := by
  rcases h with h | h
  · exact h.parametersText hn
  · exact ht.parameters h

end Counterpart

/-! ## Names -/

section
variable (ht : AreTwins accessors Twin s)
  (hs : Scope.Resembles (Counterpart accessors Twin) s s')
include ht hs

theorem value?_counterpart (name : String) :
    Option.Rel (Counterpart accessors Twin) (s.value? name) (s'.value? name) := by
  unfold Scope.value?
  obtain ⟨h, h'⟩ | ⟨b, b', h, h', hb⟩ := rel_cases (hs name) <;> rw [h, h']
  · exact .none
  · cases hb with
    | value he => exact .some (he.unwrap ht)
    | _ => exact .none

theorem callable?_counterpart (name : String) :
    Option.Rel (fun f f' => f.kind.isFunction = true ∧ Counterpart accessors Twin f f')
      (s.callable? name) (s'.callable? name) := by
  unfold Scope.callable?
  obtain ⟨h, h'⟩ | ⟨b, b', h, h', hb⟩ := rel_cases (hs name) <;> rw [h, h']
  · exact .none
  · cases hb with
    | value he =>
      have hu := he.unwrap ht
      simp only [← hu.isFunction ht]
      split
      · rename_i hfunction
        exact .some ⟨hfunction, hu⟩
      · exact .none
    | function hf he => exact .some ⟨hf, he⟩
    | _ => exact .none

end

/-! ## The rules -/

/-- Calls for counterparts. -/
abbrev CallsOf (accessors : List String) (Twin : Node → Node → Prop) : Call → Call → Prop :=
  Call.Resembles (Counterpart accessors Twin)

theorem resembles_field (h : ReadsAlike accessors n n') (role : Role) :
    (Question.field resolving n role).Resembles (CallsOf accessors Twin)
      (.field resolving n' role) := by
  unfold Question.field
  obtain ⟨hc, hc'⟩ | ⟨c, c', hc, hc', hrel⟩ := rel_cases (h.field? role) <;> rw [hc, hc']
  · exact .known any
  · exact .call resolving (.infer hrel.counterpart)

theorem resembles_first (h : ReadsAlike accessors n n') (hk : readsFirst n.kind = true)
    (otherwise : String) :
    (Question.first resolving n otherwise).Resembles (CallsOf accessors Twin)
      (.first resolving n' otherwise) := by
  unfold Question.first
  obtain ⟨hc, hc'⟩ | ⟨c, c', hc, hc', hrel⟩ := rel_cases (h.head? hk) <;> rw [hc, hc']
  · exact .known otherwise
  · exact .call resolving (.infer hrel.counterpart)

theorem kind_of_mem_visitReturns {r : Node} (found stack : List Node) :
    r ∈ Node.visitReturns found stack → r ∈ found ∨ r.kind = .returnStatement := by
  induction found, stack using Node.visitReturns.induct with
  | case1 found => rw [Node.visitReturns]; exact fun h => Or.inl (List.mem_reverse.1 h)
  | case2 found n rest ih =>
    rw [Node.visitReturns]
    intro h
    rcases ih h with h | h
    · split at h
      · rename_i hk
        rcases List.mem_cons.1 h with rfl | h
        · exact Or.inr (by simpa using hk)
        · exact Or.inl h
      · exact Or.inl h
    · exact Or.inr h

theorem kind_of_mem_ownReturns {r f : Node} (h : r ∈ f.ownReturns) : r.kind = .returnStatement := by
  unfold Node.ownReturns at h
  split at h
  · cases h
  · exact (kind_of_mem_visitReturns _ _ h).resolve_left List.not_mem_nil

theorem isAsync_alike (h : ReadsAlike accessors n n') : isAsync n = isAsync n' :=
  h.hasToken "async"

theorem resembles_returnRule (h : ReadsAlike accessors n n') (hf : n.kind.isFunction = true) :
    (returnRule resolving n).Resembles (CallsOf accessors Twin) answers (returnRule resolving n') := by
  have hreturned : returned n = returned n' := by
    funext type
    unfold returned
    rw [isAsync_alike h]
  unfold returnRule
  rw [← h.returnType_text hf, ← hreturned]
  split
  · exact .plain _
  · obtain ⟨hb, hb'⟩ | ⟨body, body', hb, hb', hbody⟩ := rel_cases (h.field? .body) <;> rw [hb, hb']
    · exact .plain _
    · simp only [← hbody.kind]
      split
      · exact .one (.call resolving (.infer hbody.counterpart)) _
      · have hreturns := h.ownReturns
        have hkinds : ∀ r ∈ n.ownReturns, r.kind = .returnStatement := fun _ => kind_of_mem_ownReturns
        revert hreturns hkinds
        generalize n.ownReturns = rs
        generalize n'.ownReturns = rs'
        intro hreturns hkinds
        cases hreturns with
        | nil => exact .plain _
        | @cons r r' rs rs' hr hrs =>
          refine ⟨?_, fun _ _ => rfl⟩
          rw [List.forall₂_map_left_iff, List.forall₂_map_right_iff]
          refine ((List.forall₂_and_left _ _).2 ⟨hkinds, .cons hr hrs⟩).imp fun r r' hr => ?_
          exact resembles_first hr.2 (by rw [hr.1]; rfl) _

theorem resembles_literalRule {key : String} {ms ms' : List Node}
    (h : Woven (ReadsAlike accessors) ms ms') :
    (literalRule resolving key ms).Resembles (CallsOf accessors Twin) answers
      (literalRule resolving key ms') := by
  induction h with
  | nil => exact .plain any
  | @cons m m' ms ms' hm _ _ ih =>
    have hw := hm.read.wording
    unfold literalRule
    rw [← hm.kind]
    cases hk : m.kind with
    | pair =>
      simp only [hk, wording, List.cons.injEq, and_true] at hw
      rw [hw]
      split
      · exact .one (resembles_field hm .value) id
      · exact ih
    | shorthand =>
      simp only [hk, wording, List.cons.injEq, Option.some.injEq, and_true] at hw
      rw [hw]
      split
      · rename_i hpair; cases hpair
      · split
        · exact .one (.call resolving (.resolve key)) id
        · exact ih
    | _ => exact ih
  | @remark r ms ms' hr _ ih =>
    have hk := Node.kind_of_isRemark hr
    rw [literalRule]
    simpa [hk] using ih

theorem resembles_memberQuestion (h : ReadsAlike accessors n n') :
    Option.Rel (fun p p' : String × Question =>
        p.1 = p'.1 ∧ p.2.Resembles (CallsOf accessors Twin) p'.2)
      (memberQuestion resolving n) (memberQuestion resolving n') := by
  have hw := h.read.wording
  unfold memberQuestion
  rw [← h.kind]
  cases hk : n.kind with
  | pair =>
    simp only [hk, wording, List.cons.injEq, and_true] at hw
    rw [← hw]
    cases propertyKey? (n.field? .key) with
    | none => exact .none
    | some key => exact .some ⟨rfl, resembles_field h .value⟩
  | shorthand =>
    simp only [hk, wording, List.cons.injEq, Option.some.injEq, and_true] at hw
    rw [← hw]
    exact .some ⟨rfl, .call resolving (.resolve _)⟩
  | methodDefinition =>
    simp only [hk, wording, List.cons.injEq, and_true] at hw
    rw [← hw.2.2]
    cases propertyKey? (n.field? .name) with
    | none => exact .none
    | some key =>
      exact .some ⟨rfl, .call resolving (.functionType (by rw [hk]; rfl) h.counterpart)⟩
  | _ => exact .none

theorem resembles_objectRule (h : ReadsAlike accessors n n') :
    (objectRule resolving n).Resembles (CallsOf accessors Twin) answers (objectRule resolving n') := by
  have hmembers : List.Forall₂ (fun p p' : String × Question =>
        p.1 = p'.1 ∧ p.2.Resembles (CallsOf accessors Twin) p'.2)
      (n.named.filterMap (memberQuestion resolving)) (n'.named.filterMap (memberQuestion resolving)) :=
    h.named.filterMap (fun _ _ hm => resembles_memberQuestion hm) fun r hr => by
      simp [memberQuestion, Node.kind_of_isRemark hr]
  refine ⟨?_, fun types _ => ?_⟩
  · exact List.rel_map (fun _ _ hp => hp.2) hmembers
  · have hkeys : (n.named.filterMap (memberQuestion resolving)).map Prod.fst =
        (n'.named.filterMap (memberQuestion resolving)).map Prod.fst :=
      List.forall₂_eq_eq_eq ▸ List.rel_map (fun _ _ hp => hp.1) hmembers
    simp only [objectRule, hkeys]

theorem elements_alike (h : ReadsAlike accessors n n') :
    List.Forall₂ (ReadsAlike accessors) (elements n) (elements n') :=
  List.rel_filter (fun _ _ hm => by simp [hm.kind]) h.operands

theorem resembles_arrayRule (h : ReadsAlike accessors n n') :
    (arrayRule resolving n).Resembles (CallsOf accessors Twin) answers (arrayRule resolving n') := by
  have helements := elements_alike h
  unfold arrayRule
  revert helements
  generalize elements n = es
  generalize elements n' = es'
  intro helements
  cases helements with
  | nil => exact .plain _
  | cons he hes =>
    refine ⟨?_, fun _ _ => rfl⟩
    exact List.rel_map (fun _ _ he => .call resolving (.infer he.counterpart)) (.cons he hes)

theorem resembles_binaryRule (h : ReadsAlike accessors n n') (hk : n.kind = .binary) :
    (binaryRule resolving n).Resembles (CallsOf accessors Twin) answers (binaryRule resolving n') := by
  have hw := h.read.wording
  simp only [hk, wording, List.cons.injEq, Option.some.injEq, and_true] at hw
  unfold binaryRule
  rw [← hw]
  simp only
  split
  · exact .plain _
  · exact .two (resembles_field h .left) (resembles_field h .right) _

theorem assertedRule_eq (n : Node) :
    assertedRule resolving n =
      match assertedText? n with
      | some type => .plain type
      | none => .one (.first resolving n any) id := by
  unfold assertedRule assertedText?
  rcases n.named with _ | ⟨e, _ | ⟨type, rest⟩⟩ <;> rfl

theorem resembles_assertedRule (h : ReadsAlike accessors n n') (hk : n.kind = .asExpression) :
    (assertedRule resolving n).Resembles (CallsOf accessors Twin) answers
      (assertedRule resolving n') := by
  have hw := h.read.wording
  simp only [hk, wording, List.cons.injEq, and_true] at hw
  rw [assertedRule_eq, assertedRule_eq, ← hw]
  split
  · exact .plain _
  · exact .one (resembles_first h (by rw [hk]; rfl) _) id

/-- The rule for a function is that of its type, whatever function it is. -/
theorem expressionRule_of_isFunction (h : n.kind.isFunction = true) :
    expressionRule resolving n = .one (.call resolving (.functionType n)) id := by
  unfold expressionRule
  revert h
  cases n.kind <;> simp [Kind.isFunction]

theorem resembles_expressionRule (h : ReadsAlike accessors n n') :
    (expressionRule resolving n).Resembles (CallsOf accessors Twin) answers
      (expressionRule resolving n') := by
  by_cases hf : n.kind.isFunction = true
  · rw [expressionRule_of_isFunction hf, expressionRule_of_isFunction (h.kind ▸ hf)]
    exact .one (.call resolving (.functionType hf h.counterpart)) id
  have hw := h.read.wording
  unfold expressionRule
  rw [← h.kind]
  cases hk : n.kind with
  | number =>
    simp only [hk, wording, List.cons.injEq, Option.some.injEq, and_true] at hw
    rw [hw]
    exact .plain _
  | identifier =>
    rw [h.text_of_identifier hk]
    simp only
    split
    · exact .plain _
    · split
      · exact .plain _
      · exact .one (.call resolving (.resolve _)) id
  | object => exact resembles_objectRule h
  | array => exact resembles_arrayRule h
  | parenthesized => exact .one (resembles_first h (by rw [hk]; rfl) any) id
  | satisfies => exact .one (resembles_first h (by rw [hk]; rfl) any) id
  | nonNull => exact .one (resembles_first h (by rw [hk]; rfl) any) id
  | asExpression => exact resembles_assertedRule h hk
  | assertion =>
    simp only [hk, wording, List.cons.injEq, Option.some.injEq, and_true] at hw
    rw [hw]
    exact .plain _
  | await => exact .one (resembles_first h (by rw [hk]; rfl) any) awaited
  | ternary => exact .two (resembles_field h .consequence) (resembles_field h .alternative) _
  | binary => exact resembles_binaryRule h hk
  | unary =>
    simp only [hk, wording, List.cons.injEq, Option.some.injEq, and_true] at hw
    rw [hw]
    exact .plain _
  | assignment => exact .one (resembles_field h .right) id
  | sequence =>
    obtain ⟨he, he'⟩ | ⟨e, e', he, he', hrel⟩ := rel_cases (h.getLast? hk) <;> rw [he, he']
    · exact .plain any
    · exact .one (.call resolving (.infer hrel.counterpart)) id
  | construction =>
    simp only [hk, wording, List.cons.injEq, Option.some.injEq, and_true] at hw
    rw [hw]
    exact .plain _
  | call => exact .one (.call resolving (.callType hk h.counterpart)) id
  | member => exact .one (.call resolving (.memberType hk h.counterpart)) id
  | subscript => exact .one (resembles_field h .object) elementOf
  | functionDeclaration | generatorDeclaration | functionExpression | generatorExpression
  | arrowFunction | methodDefinition => rw [hk] at hf; exact absurd rfl hf
  | _ => exact .plain _

/-! ## Names, calls and members -/

section
variable (hs : Scope.Resembles (Counterpart accessors Twin) s s')
include hs

theorem resembles_nameRule (name : String) :
    (nameRule resolving s name).Resembles (CallsOf accessors Twin) answers
      (nameRule resolving s' name) := by
  unfold nameRule
  split
  · exact .plain any
  · obtain ⟨h, h'⟩ | ⟨b, b', h, h', hb⟩ := rel_cases (hs name) <;> rw [h, h']
    · exact .plain any
    · cases hb with
      | annotated type => exact .plain type
      | member type key => exact .plain _
      | value he => exact .one (.call _ (.infer he)) id
      | function hf he => exact .one (.call _ (.functionType hf he)) id
      | untyped => exact .plain any

variable (ht : AreTwins accessors Twin s)
include ht

theorem resembles_callRule (h : ReadsAlike accessors n n') (hk : n.kind = .call) :
    (callRule resolving s n).Resembles (CallsOf accessors Twin) answers
      (callRule resolving s' n') := by
  have hw := h.read.wording
  simp only [hk, wording, List.cons.injEq, and_true] at hw
  have hcalled := hw.1
  unfold calledType? at hcalled
  unfold callRule
  obtain ⟨hc, hc'⟩ | ⟨c, c', hc, hc', hrel⟩ := rel_cases (h.field? .callee) <;>
    rw [hc, hc'] at hcalled ⊢
  · exact .plain any
  simp only [Option.map_some, ← hrel.unwrap.kind] at hcalled ⊢
  cases hck : c.unwrap.kind with
  | identifier =>
    simp only [← hrel.unwrap.text_of_identifier hck]
    obtain ⟨hf, hf'⟩ | ⟨b, b', hf, hf', -⟩ := rel_cases (hs c.unwrap.text) <;> rw [hf, hf']
    · exact .plain _
    · obtain ⟨hf, hf'⟩ | ⟨f, f', hf, hf', hfunction, hrel⟩ :=
        rel_cases (callable?_counterpart ht hs c.unwrap.text) <;> simp only [hf, hf']
      · exact .plain any
      · split
        · exact .plain any
        · exact .one (.call _ (.returnType hfunction hrel)) id
  | member =>
    simp only [hck, beq_self_eq_true, if_true, Option.some.injEq] at hcalled
    simp only [hcalled]
    exact .plain _
  | _ => exact .plain any

theorem resembles_memberRule (h : ReadsAlike accessors n n') (hk : n.kind = .member) :
    (memberRule resolving s n).Resembles (CallsOf accessors Twin) answers
      (memberRule resolving s' n') := by
  have hw := h.read.wording
  simp only [hk, wording, List.cons.injEq, Option.some.injEq, and_true] at hw
  unfold memberRule
  rw [← hw]
  simp only
  split
  · exact .plain _
  obtain ⟨hc, hc'⟩ | ⟨o, o', hc, hc', hrel⟩ := rel_cases (h.field? .object) <;> rw [hc, hc']
  · exact .plain any
  have hinferred : ∀ key, (inferredMemberRule resolving o.unwrap key).Resembles
      (CallsOf accessors Twin) answers (inferredMemberRule resolving o'.unwrap key) := fun key =>
    .one (.call resolving (.infer hrel.unwrap.counterpart)) _
  simp only [Option.map_some, ← hrel.unwrap.kind]
  split
  · rename_i hid
    unfold nameMemberRule
    simp only [← hrel.unwrap.text_of_identifier (by simpa using hid)]
    obtain ⟨hv, hv'⟩ | ⟨e, e', hv, hv', he⟩ := rel_cases (value?_counterpart ht hs o.unwrap.text) <;>
      simp only [hv, hv']
    · exact hinferred _
    · by_cases hfunction : e.kind.isFunction = true
      · have hfunction' : e'.kind.isFunction = true := he.isFunction ht ▸ hfunction
        simp only [not_object_of_isFunction hfunction, not_object_of_isFunction hfunction']
        exact hinferred _
      · have halike := he.alike ht (by simpa using hfunction)
        rw [← halike.kind]
        split
        · split
          · exact .plain any
          · exact resembles_literalRule halike.named
        · exact hinferred _
  · split
    · exact resembles_literalRule hrel.unwrap.named
    · exact hinferred _

/-- **The rules of calls for counterparts resemble each other.** -/
theorem rule_resembles (limit : Nat) (resolving : List String) (c c' : Call)
    (h : CallsOf accessors Twin c c') :
    (c.rule resolving s).Resembles (CallsOf accessors Twin) (answer s limit)
      (c'.rule resolving s') := by
  cases h with
  | @infer e e' he =>
    rcases he with he | he
    · exact resembles_expressionRule he
    · obtain ⟨hf, hf'⟩ := ht.functions he
      show (expressionRule resolving e).Resembles _ _ (expressionRule resolving e')
      rw [expressionRule_of_isFunction hf, expressionRule_of_isFunction hf']
      exact .one (.call resolving (.functionType hf (Or.inr he))) id
  | resolve name => exact resembles_nameRule hs name
  | @functionType f f' hf he =>
    show (functionRule resolving f).Resembles _ _ (functionRule resolving f')
    unfold functionRule
    rw [← he.parametersText ht hf]
    exact .one (.call resolving (.returnType hf he)) _
  | returnType hf he =>
    rcases he with he | he
    · exact resembles_returnRule he hf
    · exact ht.returns he limit resolving
  | callType hk he => exact resembles_callRule hs ht (he.alike ht (by rw [hk]; rfl)) hk
  | memberType hk he => exact resembles_memberRule hs ht (he.alike ht (by rw [hk]; rfl)) hk

/-- **Counterparts have the same types** in scopes that know the same. -/
theorem answer_counterpart (limit : Nat) (resolving : List String) {c c' : Call}
    (h : CallsOf accessors Twin c c') :
    answer s limit resolving c = answer s' limit resolving c' :=
  answer_resembles (fun _ _ => Call.Resembles.cost) (rule_resembles hs ht) limit resolving c c' h

end

end RouteAtlas.Typing
