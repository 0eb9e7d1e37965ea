/-
  RouteAtlas: variables that start with something else.

  A name can be bound to something that has the same types and takes another part of the limit: a function
  that is declared under the name, or a variable that starts with it, as it is or in wrappers.

  * `marked_of_asked`: what is being resolved stays so in all that a rule asks for;
  * `Exchanged name s t`: two scopes bind a name to the same function or the same object, and all others to
    the same; all rules but that of the name are the same there;
  * `answer_exchanged`: answers in one scope are answers in the other one, at a limit that is higher by as
    much as the name takes more there.  This is once only: the name is being resolved then;
  * `assigned name e s` is a scope in which a variable starts with `e`; `answer_assigned` and
    `answer_of_assigned` are the answers with a declared function and with a variable that starts with it,
    `answer_unwrapped` those with a variable that starts with something in wrappers;
  * `answer_unmet`: what does not meet a name has the same type whatever a variable of that name starts
    with, and counterparts meet the same names (`meets_counterpart`);
  * `resembles_or_bound`: scopes that know the same but for one name.
-/
import RouteAtlas.Proofs.Typing.Counterpart
import RouteAtlas.Proofs.Typing.Limit
import RouteAtlas.Proofs.Typing.Locality

namespace RouteAtlas.Typing

open RouteAtlas.Code RouteAtlas.Text
open Context (answer)

/-! ## What is being resolved -/

/-- **What is being resolved stays so** in all that a rule asks for. -/
theorem marked_of_asked {scope : Scope} {name : String} {resolving : List String} (call : Call) :
    (call.rule resolving scope).Sat fun marks _ => name ∈ resolving → name ∈ marks := by
  cases call with
  | infer n =>
    have hself : name ∈ resolving → name ∈ resolving := id
    exact sat_expressionRule (fun _ _ => hself) (fun _ => hself) (fun _ _ _ _ => hself)
      (fun _ _ => hself) hself hself fun _ => hself
  | resolve other =>
    exact sat_nameRule (fun _ _ => List.mem_cons_of_mem other) fun _ _ => List.mem_cons_of_mem other
  | functionType f => exact (Rule.sat_one _ _).2 id
  | returnType f => exact sat_returnRule (fun _ _ => id) fun _ _ _ _ => id
  | callType n => exact sat_callRule fun _ _ _ _ => List.mem_cons_of_mem _
  | memberType n =>
    have hinferred : ∀ object key, (inferredMemberRule resolving object key).Sat fun marks _ =>
        name ∈ resolving → name ∈ marks := fun _ _ => (Rule.sat_one _ _).2 id
    show (memberRule resolving scope n).Sat _
    unfold memberRule
    simp only
    split
    · simp
    · split
      · simp
      · split
        · unfold nameMemberRule
          simp only
          split
          · split
            · split
              · simp
              · exact sat_literalRule (List.mem_cons_of_mem _) fun _ _ _ _ => List.mem_cons_of_mem _
            · exact hinferred _ _
          · exact hinferred _ _
        · split
          · exact sat_literalRule id fun _ _ _ _ => id
          · exact hinferred _ _

/-! ## Names that are exchanged -/

/-- Two scopes know the same, but for how a name is bound to its function or its object. -/
structure Exchanged (name : String) (s t : Scope) : Prop where
  others : ∀ other ≠ name, s.find? other = t.find? other
  known : (s.find? name).isSome = (t.find? name).isSome
  callable : s.callable? name = t.callable? name
  object : (s.value? name).filter (fun e => e.kind == .object) =
    (t.value? name).filter fun e => e.kind == .object

namespace Exchanged

variable {s t : Scope} {name : String} (h : Exchanged name s t) (resolving : List String)
include h

omit resolving in
theorem symm : Exchanged name t s where
  others other hother := (h.others other hother).symm
  known := h.known.symm
  callable := h.callable.symm
  object := h.object.symm

theorem callRule_eq (n : Node) : callRule resolving s n = callRule resolving t n := by
  unfold callRule
  cases (n.field? .callee).map Node.unwrap with
  | none => rfl
  | some callee =>
    by_cases hname : callee.text = name
    · have hknown := h.known
      simp only [hname, h.callable]
      cases hs : s.find? name with
      | none =>
        rw [hs] at hknown
        rw [Option.isNone_iff_eq_none.1 (Option.isSome_eq_false_iff.1 hknown.symm)]
      | some bound =>
        rw [hs] at hknown
        obtain ⟨other, ht⟩ := Option.isSome_iff_exists.1 hknown.symm
        rw [ht]
    · have hcallable : s.callable? callee.text = t.callable? callee.text := by
        unfold Scope.callable?
        rw [h.others _ hname]
      simp only [h.others _ hname, hcallable]

/-- A member of the name is looked up in the same object, or in the type of the name. -/
theorem nameMemberRule_eq (object : Node) (key : String) :
    nameMemberRule resolving s object key = nameMemberRule resolving t object key := by
  have hrule : ∀ scope : Scope, nameMemberRule resolving scope object key =
      ((scope.value? object.text).filter fun e => e.kind == .object).elim
        (inferredMemberRule resolving object key) fun e =>
          if resolving.contains (object.text ++ "." ++ key) then .plain any
          else literalRule ((object.text ++ "." ++ key) :: resolving) key e.named := by
    intro scope
    unfold nameMemberRule
    cases scope.value? object.text with
    | none => rfl
    | some e => by_cases he : e.kind = .object <;> simp [he, Option.filter]
  rw [hrule, hrule]
  by_cases hname : object.text = name
  · rw [hname, h.object]
  · unfold Scope.value?
    rw [h.others _ hname]

/-- All rules but that of the name are the same, and that of the name while it is being resolved. -/
theorem rule_eq {call : Call} (hcall : call = .resolve name → name ∈ resolving) :
    call.rule resolving s = call.rule resolving t := by
  cases call with
  | resolve other =>
    show nameRule resolving s other = nameRule resolving t other
    unfold nameRule
    by_cases hname : other = name
    · simp [hname, hcall (hname ▸ rfl)]
    · rw [h.others _ hname]
  | callType n => exact h.callRule_eq resolving n
  | memberType n =>
    show memberRule resolving s n = memberRule resolving t n
    unfold memberRule
    simp only [h.nameMemberRule_eq resolving]
  | _ => rfl

end Exchanged

/-- **What has a type in a scope has it where a name is exchanged**, at a limit that is higher by what the
    name takes more there, unless the name is being resolved already. -/
theorem answer_exchanged {s t : Scope} {name : String} (h : Exchanged name s t) {c c' : Call} {more : Nat}
    (hs : ∀ resolving, name ∉ resolving →
      nameRule resolving s name = .one (.call (name :: resolving) c) id)
    (ht : ∀ resolving, name ∉ resolving →
      nameRule resolving t name = .one (.call (name :: resolving) c') id)
    (hmore : ∀ limit marks type, answer t limit marks c = some type →
      answer t (limit + more) marks c' = some type) :
    ∀ (limit : Nat) (resolving : List String) (call : Call) (type : String),
      answer s limit resolving call = some type →
        answer t (limit + if name ∈ resolving then 0 else more) resolving call = some type := by
  refine @answer_induction s _ (fun _ _ _ h => nomatch h)
    fun limit resolving call hasked type hanswer => ?_
  rw [answer_eq] at hanswer
  rw [Nat.add_right_comm, answer_eq]
  by_cases hcall : call = .resolve name → name ∈ resolving
  · rw [← h.rule_eq resolving hcall]
    refine Rule.apply_mono (fun q hq => ?_) hanswer
    have hmarked := @marked_of_asked s name resolving call q hq
    have hinner := hasked q hq
    cases q with
    | known type => trivial
    | call marks inner =>
      intro t ht
      have hlimit := hinner t ht
      by_cases hname : name ∈ resolving
      · simpa [hname, hmarked hname] using hlimit
      · by_cases hmarks : name ∈ marks
        · simp only [hmarks, if_true, Nat.add_zero] at hlimit
          simpa [hname] using answer_mono _ more limit marks inner t hlimit
        · simpa [hname, hmarks] using hlimit
  · -- The name is resolved for the first time, and is marked in what is asked for it.
    obtain ⟨rfl, hname⟩ := Classical.not_imp.1 hcall
    rw [show Call.rule resolving s (.resolve name) = _ from hs resolving hname] at hanswer hasked
    rw [show Call.rule resolving t (.resolve name) = _ from ht resolving hname]
    simp only [Rule.apply_one, Question.answered, Option.map_id_fun, id, hname, if_false] at hanswer ⊢
    have hinner := (Rule.sat_one _ _).1 hasked type hanswer
    simp only [List.mem_cons_self, if_true, Nat.add_zero] at hinner
    exact hmore _ _ type hinner

/-! ## Variables -/

/-- A scope in which a variable starts with an expression. -/
def assigned (name : String) (e : Node) (s : Scope) : Scope :=
  (name, .value e) :: s

section
variable {s : Scope} {name : String} {e : Node}

theorem find?_assigned (other : String) :
    (assigned name e s).find? other = if other = name then some (.value e) else s.find? other := by
  unfold assigned Scope.find?
  rw [List.lookup_cons]
  by_cases h : other = name
  · simp [h]
  · simp [h, beq_eq_false_iff_ne.2 h]

theorem nameRule_value (hs : s.find? name = some (.value e)) {resolving : List String}
    (hname : name ∉ resolving) :
    nameRule resolving s name = .one (.call (name :: resolving) (.infer e)) id := by
  unfold nameRule
  rw [hs]
  simp [hname]

theorem nameRule_function (hs : s.find? name = some (.function e)) {resolving : List String}
    (hname : name ∉ resolving) :
    nameRule resolving s name = .one (.call (name :: resolving) (.functionType e)) id := by
  unfold nameRule
  rw [hs]
  simp [hname]

theorem find?_assigned_self : (assigned name e s).find? name = some (.value e) := by
  rw [find?_assigned, if_pos rfl]

end

/-! ## Variables that start with a function -/

section
variable {s : Scope} {name : String} {f : Node} (hf : f.kind.isFunction = true)
include hf

/-- The type of a function takes one more of the limit as that of an expression. -/
theorem answer_infer_function (limit : Nat) (resolving : List String) :
    answer s (limit + 1) resolving (.infer f) = answer s limit resolving (.functionType f) := by
  have h := answer_eq s limit resolving (.infer f)
  rw [show Call.rule resolving s (.infer f) = .one (.call resolving (.functionType f)) id from
    expressionRule_of_isFunction hf] at h
  exact h.trans (by simp [Question.answered])

variable (hs : s.find? name = some (.function f))
include hs

/-- A function has no members written down, and is called either way. -/
theorem exchanged_assigned : Exchanged name s (assigned name f s) where
  others other hother := by rw [find?_assigned, if_neg hother]
  known := by rw [hs, find?_assigned_self]; rfl
  callable := by
    unfold Scope.callable?
    rw [hs, find?_assigned_self]
    simp [Node.unwrap_of_not_isWrapper (isWrapper_of_isFunction hf), hf]
  object := by
    unfold Scope.value?
    rw [hs, find?_assigned_self]
    simp [Option.filter, Node.unwrap_of_not_isWrapper (isWrapper_of_isFunction hf),
      not_object_of_isFunction hf]

/-- **What has a type with a variable has it with the declared function.** -/
theorem answer_of_assigned (limit : Nat) (resolving : List String) (call : Call) (type : String)
    (h : answer (assigned name f s) limit resolving call = some type) :
    answer s limit resolving call = some type := by
  have hmore : ∀ limit marks type, answer s limit marks (.infer f) = some type →
      answer s (limit + 0) marks (.functionType f) = some type := by
    intro limit marks type h
    -- The variable takes one of the limit, which there is.
    cases limit with
    | zero => cases h
    | succ limit =>
      rw [answer_infer_function hf] at h
      exact answer_mono s 1 limit marks _ type h
  simpa using answer_exchanged (exchanged_assigned hf hs).symm
    (fun _ => nameRule_value find?_assigned_self) (fun _ => nameRule_function hs) hmore limit resolving
    call type h

/-- **What has a type with the declared function has it with a variable**, at a limit that is higher by
    one unless the name is being resolved already. -/
theorem answer_assigned : ∀ (limit : Nat) (resolving : List String) (call : Call) (type : String),
    answer s limit resolving call = some type →
      answer (assigned name f s) (limit + if name ∈ resolving then 0 else 1) resolving call =
        some type :=
  answer_exchanged (exchanged_assigned hf hs) (fun _ => nameRule_function hs)
    (fun _ => nameRule_value find?_assigned_self)
    fun limit marks _ h => (answer_infer_function hf limit marks).trans h

end

/-! ## Variables that start with something in wrappers -/

section
variable {s : Scope} {name : String} {e e' : Node} (hs : s.find? name = some (.value e))
  (h : e'.unwrap = e.unwrap)
include hs h

/-- What stands in wrappers is called and looked into as it is without them. -/
theorem exchanged_unwrapped : Exchanged name s (assigned name e' s) where
  others other hother := by rw [find?_assigned, if_neg hother]
  known := by rw [hs, find?_assigned_self]; rfl
  callable := by
    unfold Scope.callable?
    rw [hs, find?_assigned_self]
    simp only [h]
  object := by
    unfold Scope.value?
    rw [hs, find?_assigned_self]
    simp only [h]

/-- **What has a type with a variable has it where the variable starts with the same in wrappers**, at a
    limit that is higher by what the wrappers take, unless the name is being resolved already. -/
theorem answer_unwrapped {more : Nat}
    (hmore : ∀ limit marks type, answer (assigned name e' s) limit marks (.infer e) = some type →
      answer (assigned name e' s) (limit + more) marks (.infer e') = some type) :
    ∀ (limit : Nat) (resolving : List String) (call : Call) (type : String),
      answer s limit resolving call = some type →
        answer (assigned name e' s) (limit + if name ∈ resolving then 0 else more) resolving call =
          some type :=
  answer_exchanged (exchanged_unwrapped hs h) (fun _ => nameRule_value hs)
    (fun _ => nameRule_value find?_assigned_self) hmore

end

/-! ## Scopes that resemble each other but for one name -/

section
variable {E : Node → Node → Prop} {s s' : Scope} {name : String}

/-- A name is bound to counterparts, or it is one that is bound in two ways. -/
def BoundAside (E : Node → Node → Prop) (name : String) (b b' : Binding) (other : String)
    (x x' : Binding) : Prop :=
  Binding.Resembles E x x' ∨ other = name ∧ x = b ∧ x' = b'

section
variable {f f' : Node}
  (h : ∀ other ≠ name, Option.Rel (Binding.Resembles E) (s.find? other) (s'.find? other))
include h

theorem resembles_of_others (hname : Option.Rel (Binding.Resembles E) (s.find? name) (s'.find? name)) :
    Scope.Resembles E s s' := by
  intro other
  by_cases hother : other = name
  · exact hother ▸ hname
  · exact h other hother

theorem resembles_assigned (hs : s.find? name = some (.value f)) (hf : E f f') :
    Scope.Resembles E s (assigned name f' s') := by
  refine resembles_of_others (fun other (hother : other ≠ name) => ?_) ?_
  · rw [find?_assigned, if_neg hother]
    exact h other hother
  · rw [find?_assigned, if_pos rfl, hs]
    exact .some (.value hf)

theorem assigned_resembles (hs : s'.find? name = some (.value f')) (hf : E f f') :
    Scope.Resembles E (assigned name f s) s' := by
  refine resembles_of_others (fun other (hother : other ≠ name) => ?_) ?_
  · rw [find?_assigned, if_neg hother]
    exact h other hother
  · rw [find?_assigned, if_pos rfl, hs]
    exact .some (.value hf)

/-- What is bound to counterparts elsewhere is bound to counterparts here. -/
theorem others_self (hE : ∀ n, E n n) :
    ∀ other ≠ name, Option.Rel (Binding.Resembles E) (s.find? other) (s.find? other) := by
  intro other hother
  obtain ⟨hb, -⟩ | ⟨b, b', hb, -, hrel⟩ := rel_cases (h other hother) <;> rw [hb]
  · exact .none
  · refine .some (Binding.Resembles.refl hE fun f hf => ?_)
    subst hf
    cases hrel with
    | function hfunction => exact hfunction

end

/-- Two scopes know the same up to counterparts, or all but the one name, which is bound in two ways. -/
theorem resembles_or_bound {b b' : Binding}
    (hs : ∀ other, Option.Rel (BoundAside E name b b' other) (s.find? other) (s'.find? other)) :
    Scope.Resembles E s s' ∨
      (∀ other ≠ name, Option.Rel (Binding.Resembles E) (s.find? other) (s'.find? other)) ∧
        s.find? name = some b ∧ s'.find? name = some b' := by
  have hothers : ∀ other ≠ name,
      Option.Rel (Binding.Resembles E) (s.find? other) (s'.find? other) := by
    intro other hother
    obtain ⟨hb, hb'⟩ | ⟨x, x', hb, hb', hrel⟩ := rel_cases (hs other) <;> rw [hb, hb']
    · exact .none
    · exact .some (hrel.resolve_right fun hname => hother hname.1)
  obtain ⟨hb, hb'⟩ | ⟨x, x', hb, hb', hrel | ⟨-, rfl, rfl⟩⟩ := rel_cases (hs name)
  · exact .inl (resembles_of_others hothers (by rw [hb, hb']; exact .none))
  · exact .inl (resembles_of_others hothers (by rw [hb, hb']; exact .some hrel))
  · exact .inr ⟨hothers, hb, hb'⟩

end

/-! ## Names that are not met -/

section
variable {accessors : List String} {Twin : Node → Node → Prop} {s s' : Scope} {name : String}

theorem exists_right_of_forall₂ {α β : Type} {R : α → β → Prop} {as : List α} {bs : List β}
    (h : List.Forall₂ R as bs) {a : α} (ha : a ∈ as) : ∃ b ∈ bs, R a b := by
  induction h with
  | nil => cases ha
  | @cons _ b _ _ hab _ ih =>
    rcases List.mem_cons.1 ha with rfl | ha
    · exact ⟨b, List.mem_cons_self .., hab⟩
    · obtain ⟨c, hc, hac⟩ := ih ha
      exact ⟨c, List.mem_cons_of_mem _ hc, hac⟩

/-- The plain name in a role is the same in trees that read alike. -/
theorem identifier_alike {n n' : Node} (h : ReadsAlike accessors n n') (role : Role) :
    (((n.field? role).map Node.unwrap).filter fun o => o.kind == .identifier).map Node.text =
      (((n'.field? role).map Node.unwrap).filter fun o => o.kind == .identifier).map Node.text := by
  obtain ⟨ho, ho'⟩ | ⟨o, o', ho, ho', hrel⟩ := rel_cases (h.field? role) <;> rw [ho, ho']
  have hkind := hrel.unwrap.kind
  by_cases hid : o.unwrap.kind = .identifier
  · have htext := hrel.unwrap.text_of_identifier hid
    simp [Option.filter, hid, ← hkind, htext]
  · simp [Option.filter, hid, ← hkind]

/-- Counterparts look up the same name. -/
theorem name?_counterpart (ht : AreTwins accessors Twin s) {c c' : Call}
    (h : CallsOf accessors Twin c c') : c.name? = c'.name? := by
  have hcallee : ∀ n : Node, (Call.callType n).name? =
      (((n.field? .callee).map Node.unwrap).filter fun o => o.kind == .identifier).map Node.text := by
    intro n
    unfold Call.name?
    cases hcallee : (n.field? .callee).map Node.unwrap with
    | none => simp [hcallee]
    | some o => by_cases hid : o.kind = .identifier <;> simp [Option.filter, hcallee, hid]
  have hobject : ∀ n : Node, (accessed? n).map Prod.fst =
      (((n.field? .object).map Node.unwrap).filter fun o => o.kind == .identifier).map Node.text := by
    intro n
    unfold accessed?
    cases (n.field? .object).map Node.unwrap with
    | none => rfl
    | some o => by_cases hid : o.kind = .identifier <;> simp [Option.filter, hid]
  cases h with
  | callType hk he =>
    rw [hcallee, hcallee]
    exact identifier_alike (he.alike ht (by rw [hk]; rfl)) .callee
  | @memberType n n' hk he =>
    have he := he.alike ht (by rw [hk]; rfl)
    have hw := he.read.wording
    simp only [hk, wording, List.cons.injEq, Option.some.injEq, and_true] at hw
    show (if n.fieldText .property == "length" then none else (accessed? n).map Prod.fst) =
      if n'.fieldText .property == "length" then none else (accessed? n').map Prod.fst
    rw [hw, hobject, hobject, identifier_alike he]
  | _ => rfl

/-- **Counterparts meet the same names** in scopes that know the same. -/
theorem meets_counterpart (hs : Scope.Resembles (Counterpart accessors Twin) s s')
    (ht : AreTwins accessors Twin s) {resolving : List String} {c : Call}
    (h : Meets s name resolving c) :
    ∀ {c' : Call}, CallsOf accessors Twin c c' → Meets s' name resolving c' := by
  induction h with
  | looked hname => exact fun hc => .looked (name?_counterpart ht hc ▸ hname)
  | @asked resolving marks call inner hasked _ ih =>
    intro c' hc
    have hasks := (rule_resembles hs ht 0 resolving call c' hc).asks
    obtain ⟨q', hq', hrel⟩ := exists_right_of_forall₂ hasks hasked
    cases hrel with
    | call _ hinner => exact .asked hq' (ih hinner)

/-- What does not meet a name has the same type whatever a variable of this name starts with. -/
theorem answer_unmet {e : Node} {resolving : List String} {call : Call}
    (h : ¬ Meets s name resolving call) (limit : Nat) :
    answer s limit resolving call = answer (assigned name e s) limit resolving call := by
  refine answer_eq_of_meets limit resolving call fun other hother => ?_
  have hne : other ≠ name := fun heq => h (heq ▸ hother)
  rw [find?_assigned, if_neg hne]

end

end RouteAtlas.Typing
