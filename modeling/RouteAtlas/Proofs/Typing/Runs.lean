/-
  RouteAtlas: what work on a shared context does.

  * `Runs watch chain marks work value` says what work does inside a chain while `marks` are being
    resolved: it leaves them as they were, whatever it results in; the chains that it notes are linked
    and go on from its own; it raises an error only where `watch` allows one; and where `watch` sees
    nothing that spoils it, it results in `value`;
  * each step and each rule runs (`Runs.bind`, `Runs.marked`, `Runs.calling`, `runs_typeOf`), if the
    rules for the types inside do;
  * `runs_perform`: so does every call, with the type of the rules of `infer`.
-/
import RouteAtlas.Proofs.Typing.Nesting

namespace RouteAtlas.Typing.Context

open RouteAtlas.Code RouteAtlas.Text

variable {α β : Type}

/-- How many of the calls of a chain are for the type of an expression. -/
def inferCount (chain : Chain) : Nat :=
  chain.countP fun frame => match frame.call with
    | .infer _ => true
    | _ => false

/-- What is watched while work runs: the scope, the chains that can raise an error, and the chains
    that spoil the result. -/
structure Watch where
  scope : Scope
  raises : Chain → Prop
  spoils : Chain → Prop

/-- The faults of calls are watched. -/
structure Watch.Sees (watch : Watch) (faults : Faults) : Prop where
  raises : ∀ chain, faults.entering chain = true ∨ faults.leaving chain = true → watch.raises chain
  spoils : ∀ chain, faults.entering chain = true ∨ faults.leaving chain = true → watch.spoils chain

/-- What work does inside a chain while marks are being resolved. -/
def Runs (watch : Watch) (chain : Chain) (marks : List String) (work : Work α)
    (value : Option α) : Prop :=
  ∃ result notes,
    (∀ context : Context, context.resolving = marks →
      work.on context = (result, { context with chains := notes ++ context.chains })) ∧
    (∀ c ∈ notes, Linked watch.scope c ∧ chain <:+ c) ∧
    (result = none → ∃ c ∈ notes, watch.raises c) ∧
    ((∀ c ∈ notes, ¬ watch.spoils c) → result = value)

/-! ## Steps -/

theorem on_bind (work : Work α) (next : α → Work β) (context : Context) :
    (work >>= next).on context =
      match work.on context with
      | (some a, context) => (next a).on context
      | (none, context) => (none, context) := by
  unfold Work.on
  rw [OptionT.run_bind, Option.elimM, StateT.run_bind]
  rcases work.run.run context with ⟨_ | a, context'⟩ <;> rfl

theorem on_get (context : Context) : (get : Work Context).on context = (some context, context) := rfl

theorem on_set (context context' : Context) :
    (set context : Work Unit).on context' = (some (), context) := rfl

theorem on_marked (key : String) (work : Work α) (context : Context) :
    (marked key work).on context =
      let after := work.on { context with resolving := key :: context.resolving }
      (after.1, { after.2 with resolving := after.2.resolving.erase key }) := rfl

theorem on_calling (faults : Faults) (chain : Chain) (call : Call) (rule : Chain → Work String)
    (context : Context) :
    (calling faults chain call rule).on context =
      let nested := ⟨call, context.resolving⟩ :: chain
      let noted := { context with chains := nested :: context.chains }
      if faults.entering nested then (none, noted)
      else
        let after := (rule nested).on noted
        if faults.leaving nested then (none, after.2) else after := by
  unfold calling
  simp only [on_bind, on_get, on_set]
  cases faults.entering (⟨call, context.resolving⟩ :: chain) with
  | true => rfl
  | false =>
    simp only [Bool.false_eq_true, if_false, on_bind]
    rcases Work.on (rule _) _ with ⟨_ | type, after⟩
    · simp
    · cases faults.leaving (⟨call, context.resolving⟩ :: chain) <;> rfl

theorem on_calling_failure (faults : Faults) (chain : Chain) (call : Call) (context : Context) :
    (calling faults chain call fun _ => failure).on context =
      (none, { context with chains := (⟨call, context.resolving⟩ :: chain) :: context.chains }) := by
  rw [on_calling]
  simp only
  split
  · rfl
  · split <;> rfl

variable {watch : Watch} {faults : Faults} {chain : Chain} {marks : List String}

theorem runs_pure (a : α) : Runs watch chain marks (pure a) (some a) :=
  ⟨some a, [], fun _ _ => rfl, by simp, by simp, fun _ => rfl⟩

theorem Runs.bind {work : Work α} {next : α → Work β} {value : Option α} {f : α → Option β}
    (h : Runs watch chain marks work value)
    (hnext : ∀ a, Runs watch chain marks (next a) (f a)) :
    Runs watch chain marks (work >>= next) (value.bind f) := by
  obtain ⟨result, notes, hon, hlinked, hraises, hvalue⟩ := h
  cases result with
  | none =>
    refine ⟨none, notes, fun context hc => ?_, hlinked, fun _ => hraises rfl, fun hs => ?_⟩
    · rw [on_bind, hon context hc]
    · rw [← hvalue hs]; rfl
  | some a =>
    obtain ⟨result', notes', hon', hlinked', hraises', hvalue'⟩ := hnext a
    refine ⟨result', notes' ++ notes, fun context hc => ?_, fun c hc => ?_, fun hr => ?_,
      fun hs => ?_⟩
    · rw [on_bind, hon context hc]
      simp only [List.append_assoc]
      exact hon' _ hc
    · exact (List.mem_append.1 hc).elim (hlinked' c) (hlinked c)
    · obtain ⟨c, hc, hraised⟩ := hraises' hr
      exact ⟨c, List.mem_append_left _ hc, hraised⟩
    · rw [← hvalue fun c hc => hs c (List.mem_append_right _ hc)]
      exact hvalue' fun c hc => hs c (List.mem_append_left _ hc)

theorem Runs.returning {work : Work α} {value : Option α} (h : Runs watch chain marks work value)
    (f : α → β) : Runs watch chain marks (do return f (← work)) (value.map f) := by
  rw [Option.map_eq_bind]
  exact h.bind fun a => runs_pure (f a)

theorem runs_mapM {f : α → Work β} {g : α → Option β} :
    ∀ as : List α, (∀ a ∈ as, Runs watch chain marks (f a) (g a)) →
      Runs watch chain marks (as.mapM f) (as.mapM g)
  | [], _ => runs_pure []
  | a :: as, h => by
    rw [List.mapM_cons, List.mapM_cons]
    refine (h a (by simp)).bind fun b => ?_
    exact (runs_mapM as fun a' ha' => h a' (by simp [ha'])).bind fun bs => runs_pure (b :: bs)

theorem Runs.isMarked {key : String} {next : Bool → Work α} {value : Option α}
    (h : Runs watch chain marks (next (marks.contains key)) value) :
    Runs watch chain marks (isMarked key >>= next) value := by
  obtain ⟨result, notes, hon, hrest⟩ := h
  refine ⟨result, notes, fun context hc => ?_, hrest⟩
  subst hc
  rw [on_bind]
  exact hon context rfl

/-- What is resolved while work runs is taken back out. -/
theorem Runs.marked {key : String} {work : Work α} {value : Option α}
    (h : Runs watch chain (key :: marks) work value) :
    Runs watch chain marks (marked key work) value := by
  obtain ⟨result, notes, hon, hrest⟩ := h
  refine ⟨result, notes, fun context hc => ?_, hrest⟩
  subst hc
  rw [on_marked, hon _ rfl]
  simp

/-- Work is done unless what it resolves is being resolved already. -/
theorem Runs.once {key : String} {work : Work α} {value : Option α} (otherwise : α)
    (h : key ∉ marks → Runs watch chain (key :: marks) work value) :
    Runs watch chain marks
      (do if ← Context.isMarked key then return otherwise else Context.marked key work)
      (if marks.contains key then some otherwise else value) := by
  refine Runs.isMarked ?_
  by_cases hmark : key ∈ marks
  · simpa [hmark] using runs_pure otherwise
  · simp only [List.contains_iff_mem, hmark, if_false]
    exact (h hmark).marked

theorem Runs.outer {frame : Frame} {work : Work α} {value : Option α}
    (h : Runs watch (frame :: chain) marks work value) : Runs watch chain marks work value := by
  obtain ⟨result, notes, hon, hlinked, hrest⟩ := h
  exact ⟨result, notes, hon, fun c hc =>
    ⟨(hlinked c hc).1, (List.suffix_cons frame chain).trans (hlinked c hc).2⟩, hrest⟩

/-- A call that can be made runs, if its rule does. -/
theorem Runs.calling {call : Call} {rule : Chain → Work String} {value : Option String}
    (hsees : watch.Sees faults) (hl : Linked watch.scope (⟨call, marks⟩ :: chain))
    (h : Runs watch (⟨call, marks⟩ :: chain) marks (rule (⟨call, marks⟩ :: chain)) value) :
    Runs watch (⟨call, marks⟩ :: chain) marks (calling faults chain call rule) value := by
  obtain ⟨result, notes, hon, hlinked, hraises, hvalue⟩ := h
  have hnested : ∀ c ∈ notes ++ [⟨call, marks⟩ :: chain],
      Linked watch.scope c ∧ (⟨call, marks⟩ :: chain) <:+ c := by
    intro c hc
    rcases List.mem_append.1 hc with hc | hc
    · exact hlinked c hc
    · rw [List.mem_singleton.1 hc]; exact ⟨hl, List.suffix_refl _⟩
  cases he : faults.entering (⟨call, marks⟩ :: chain) with
  | true =>
    refine ⟨none, [⟨call, marks⟩ :: chain], fun context hc => ?_,
      fun c hc => hnested c (List.mem_append_right _ hc), fun _ => ?_, fun hs => ?_⟩
    · subst hc
      rw [on_calling]
      simp [he]
    · exact ⟨_, List.mem_singleton_self _, hsees.raises _ (Or.inl he)⟩
    · exact absurd (hsees.spoils _ (Or.inl he)) (hs _ (List.mem_singleton_self _))
  | false =>
    have hmem : ⟨call, marks⟩ :: chain ∈ notes ++ [⟨call, marks⟩ :: chain] := by simp
    cases hf : faults.leaving (⟨call, marks⟩ :: chain) with
    | true =>
      refine ⟨none, notes ++ [⟨call, marks⟩ :: chain], fun context hc => ?_, hnested, fun _ => ?_,
        fun hs => ?_⟩
      · subst hc
        rw [on_calling]
        simp [he, hf, hon]
      · exact ⟨_, hmem, hsees.raises _ (Or.inr hf)⟩
      · exact absurd (hsees.spoils _ (Or.inr hf)) (hs _ hmem)
    | false =>
      refine ⟨result, notes ++ [⟨call, marks⟩ :: chain], fun context hc => ?_, hnested,
        fun hr => ?_, fun hs => hvalue fun c hc => hs c (List.mem_append_left _ hc)⟩
      · subst hc
        rw [on_calling]
        simp [he, hf, hon]
      · obtain ⟨c, hc, hraised⟩ := hraises hr
        exact ⟨c, List.mem_append_left _ hc, hraised⟩

/-! ## Rules -/

section
variable {infer : Chain → Node → Work String} {inferred : Infer} {depth : Nat}

/-- The types inside run, in chains with some number of them. -/
def InferRuns (watch : Watch) (depth : Nat) (infer : Chain → Node → Work String)
    (inferred : Infer) : Prop :=
  ∀ (chain : Chain) (marks : List String) (e : Node), Linked watch.scope (⟨.infer e, marks⟩ :: chain) →
    inferCount chain = depth →
    Runs watch (⟨.infer e, marks⟩ :: chain) marks (infer chain e) (inferred marks e)

theorem runs_inferField (hi : InferRuns watch depth infer inferred) (hd : inferCount chain = depth)
    {n : Node} (hl : ∀ c ∈ n.children, Linked watch.scope (⟨.infer c, marks⟩ :: chain))
    (role : Role) :
    Runs watch chain marks (inferField infer chain n role)
      (Typing.inferField inferred marks n role) := by
  unfold inferField Typing.inferField
  cases hf : n.field? role with
  | none => exact runs_pure any
  | some c => exact (hi chain marks c (hl c (Node.mem_children_of_field? hf)) hd).outer

/-- The type of the first named child, or something else where there is none. -/
theorem runs_firstNamed (hi : InferRuns watch depth infer inferred) (hd : inferCount chain = depth)
    {n : Node} (hl : ∀ c ∈ n.children, Linked watch.scope (⟨.infer c, marks⟩ :: chain))
    (otherwise : String) :
    Runs watch chain marks
      (match n.named.head? with
        | some c => infer chain c
        | none => pure otherwise)
      (match n.named.head? with
        | some c => inferred marks c
        | none => some otherwise) := by
  cases hf : n.named.head? with
  | none => exact runs_pure otherwise
  | some c =>
    have hc : c ∈ n.children := Node.mem_children_of_mem_named (List.mem_of_head? hf)
    exact (hi chain marks c (hl c hc) hd).outer

theorem runs_inferFirst (hi : InferRuns watch depth infer inferred) (hd : inferCount chain = depth)
    {n : Node} (hl : ∀ c ∈ n.children, Linked watch.scope (⟨.infer c, marks⟩ :: chain)) :
    Runs watch chain marks (inferFirst infer chain n) (Typing.inferFirst inferred marks n) :=
  runs_firstNamed hi hd hl any

theorem runs_returnedType (hi : InferRuns watch depth infer inferred)
    (hd : inferCount chain = depth) {s : Node}
    (hl : ∀ c ∈ s.children, Linked watch.scope (⟨.infer c, marks⟩ :: chain)) :
    Runs watch chain marks (returnedType infer chain s) (Typing.returnedType inferred marks s) :=
  runs_firstNamed hi hd hl "undefined"

theorem runs_bodyType (hi : InferRuns watch depth infer inferred) {f : Node}
    (hl : Linked watch.scope (⟨.returnType f, marks⟩ :: chain))
    (hd : inferCount (⟨.returnType f, marks⟩ :: chain) = depth) :
    Runs watch (⟨.returnType f, marks⟩ :: chain) marks
      (bodyType infer (⟨.returnType f, marks⟩ :: chain) f) (Typing.bodyType inferred marks f) := by
  unfold bodyType Typing.bodyType
  cases hb : f.field? .body with
  | none => exact runs_pure "void"
  | some body =>
    simp only
    split
    · exact (hi _ marks body (hl.nest (.body (Node.mem_children_of_field? hb))) hd).outer
    · cases hr : f.ownReturns with
      | nil => exact runs_pure "void"
      | cons r rs =>
        refine Runs.returning (runs_mapM _ fun s hs => ?_) union
        rw [← hr] at hs
        exact runs_returnedType hi hd fun c hc => hl.nest (.returned hs hc)

theorem runs_returnType (hsees : watch.Sees faults) (hi : InferRuns watch depth infer inferred)
    {f : Node} (hl : Linked watch.scope (⟨.returnType f, marks⟩ :: chain))
    (hd : inferCount chain = depth) :
    Runs watch (⟨.returnType f, marks⟩ :: chain) marks (returnType infer faults chain f)
      (Typing.returnType inferred marks f) := by
  unfold returnType Typing.returnType
  refine Runs.calling hsees hl ?_
  cases typeTextOf (f.field? .returnType) with
  | some type => exact runs_pure type
  | none => exact (runs_bodyType hi hl (by simpa [inferCount] using hd)).returning _

theorem runs_functionType (hsees : watch.Sees faults) (hi : InferRuns watch depth infer inferred)
    {f : Node} (hl : Linked watch.scope (⟨.functionType f, marks⟩ :: chain))
    (hd : inferCount chain = depth) :
    Runs watch (⟨.functionType f, marks⟩ :: chain) marks (functionType infer faults chain f)
      (Typing.functionType inferred marks f) := by
  unfold functionType Typing.functionType
  refine Runs.calling hsees hl ?_
  have hd' : inferCount (⟨.functionType f, marks⟩ :: chain) = depth := by
    simpa [inferCount] using hd
  exact (runs_returnType hsees hi (hl.nest .result) hd').outer.returning _

theorem runs_resolve (hsees : watch.Sees faults) (hi : InferRuns watch depth infer inferred)
    {name : String} (hl : Linked watch.scope (⟨.resolve name, marks⟩ :: chain))
    (hd : inferCount chain = depth) :
    Runs watch (⟨.resolve name, marks⟩ :: chain) marks
      (resolve infer faults chain watch.scope name)
      (Typing.resolve inferred marks watch.scope name) := by
  unfold resolve Typing.resolve
  refine Runs.calling hsees hl (Runs.isMarked ?_)
  have hd' : inferCount (⟨.resolve name, marks⟩ :: chain) = depth := by simpa [inferCount] using hd
  by_cases hmark : name ∈ marks
  · simpa [hmark] using runs_pure any
  · simp only [List.contains_iff_mem, hmark, if_false]
    cases hb : watch.scope.find? name with
    | none => exact runs_pure any
    | some b =>
      cases b with
      | annotated type => exact runs_pure type
      | member type key => exact runs_pure (memberOf type key)
      | value e => exact (hi _ _ e (hl.nest (.value hmark hb)) hd').outer.marked
      | function f =>
        exact (runs_functionType hsees hi (hl.nest (.declared hmark hb)) hd').outer.marked
      | untyped => exact runs_pure any

/-! ## Objects, calls and members -/

theorem runs_objectMembers (hsees : watch.Sees faults)
    (hi : InferRuns watch depth infer inferred) {n m : Node} (hm : m ∈ n.children)
    (hl : Linked watch.scope (⟨.infer n, marks⟩ :: chain))
    (hd : inferCount (⟨.infer n, marks⟩ :: chain) = depth) :
    Runs watch (⟨.infer n, marks⟩ :: chain) marks
      (objectMembers infer faults (⟨.infer n, marks⟩ :: chain) watch.scope m)
      (Typing.objectMembers inferred marks watch.scope m) := by
  unfold objectMembers Typing.objectMembers
  cases m.kind with
  | pair =>
    simp only
    cases propertyKey? (m.field? .key) with
    | none => exact runs_pure []
    | some key =>
      exact (runs_inferField hi hd (fun c hc => hl.nest (.member hm hc)) _).returning _
  | shorthand => exact (runs_resolve hsees hi (hl.nest .name) hd).outer.returning _
  | methodDefinition =>
    simp only
    cases propertyKey? (m.field? .name) with
    | none => exact runs_pure []
    | some key => exact (runs_functionType hsees hi (hl.nest (.method hm)) hd).outer.returning _
  | _ => exact runs_pure []

theorem runs_objectType (hsees : watch.Sees faults) (hi : InferRuns watch depth infer inferred)
    {n : Node} (hl : Linked watch.scope (⟨.infer n, marks⟩ :: chain))
    (hd : inferCount (⟨.infer n, marks⟩ :: chain) = depth) :
    Runs watch (⟨.infer n, marks⟩ :: chain) marks
      (objectType infer faults (⟨.infer n, marks⟩ :: chain) watch.scope n)
      (Typing.objectType inferred marks watch.scope n) := by
  refine Runs.returning (runs_mapM _ fun m hm => ?_) fun ms => objectText ms.flatten
  exact runs_objectMembers hsees hi (Node.mem_children_of_mem_named hm) hl hd

theorem runs_arrayType (hi : InferRuns watch depth infer inferred)
    {n : Node} (hl : Linked watch.scope (⟨.infer n, marks⟩ :: chain))
    (hd : inferCount (⟨.infer n, marks⟩ :: chain) = depth) :
    Runs watch (⟨.infer n, marks⟩ :: chain) marks
      (arrayType infer (⟨.infer n, marks⟩ :: chain) n) (Typing.arrayType inferred marks n) := by
  unfold arrayType Typing.arrayType
  cases he : elements n with
  | nil => exact runs_pure (arrayOf any)
  | cons e es =>
    refine Runs.returning (runs_mapM _ fun c hc => ?_) fun ts => arrayOf (union ts)
    rw [← he] at hc
    have hc' : c ∈ n.named := (List.mem_filter.1 (List.mem_filter.1 hc).1).1
    exact (hi _ marks c (hl.nest (.child (Node.mem_children_of_mem_named hc'))) hd).outer

theorem runs_binaryType (hi : InferRuns watch depth infer inferred)
    {n : Node} (hl : Linked watch.scope (⟨.infer n, marks⟩ :: chain))
    (hd : inferCount (⟨.infer n, marks⟩ :: chain) = depth) :
    Runs watch (⟨.infer n, marks⟩ :: chain) marks
      (binaryType infer (⟨.infer n, marks⟩ :: chain) n) (Typing.binaryType inferred marks n) := by
  have hchild : ∀ c ∈ n.children, Linked watch.scope (⟨.infer c, marks⟩ :: ⟨.infer n, marks⟩ :: chain) :=
    fun c hc => hl.nest (.child hc)
  unfold binaryType Typing.binaryType
  simp only
  split
  · exact runs_pure "boolean"
  · exact (runs_inferField hi hd hchild .left).bind fun left =>
      (runs_inferField hi hd hchild .right).returning _

theorem runs_namedCallType (hsees : watch.Sees faults) (hi : InferRuns watch depth infer inferred)
    {n : Node} (hl : Linked watch.scope (⟨.callType n, marks⟩ :: chain))
    (hd : inferCount (⟨.callType n, marks⟩ :: chain) = depth) (name : String) :
    Runs watch (⟨.callType n, marks⟩ :: chain) marks
      (namedCallType infer faults (⟨.callType n, marks⟩ :: chain) watch.scope name)
      (Typing.namedCallType inferred marks watch.scope name) := by
  unfold namedCallType Typing.namedCallType
  cases watch.scope.find? name with
  | none => exact runs_pure _
  | some b =>
    cases hf : watch.scope.callable? name with
    | none => exact runs_pure any
    | some f =>
      exact Runs.once any fun hmark =>
        (runs_returnType hsees hi (hl.nest (.callee hmark hf)) hd).outer

theorem runs_callType (hsees : watch.Sees faults) (hi : InferRuns watch depth infer inferred)
    {n : Node} (hl : Linked watch.scope (⟨.callType n, marks⟩ :: chain))
    (hd : inferCount chain = depth) :
    Runs watch (⟨.callType n, marks⟩ :: chain) marks (callType infer faults chain watch.scope n)
      (Typing.callType inferred marks watch.scope n) := by
  unfold callType Typing.callType
  refine Runs.calling hsees hl ?_
  cases (n.field? .callee).map Node.unwrap with
  | none => exact runs_pure any
  | some callee =>
    simp only
    cases callee.kind with
    | identifier => exact runs_namedCallType hsees hi hl (by simpa [inferCount] using hd) callee.text
    | member => exact runs_pure _
    | _ => exact runs_pure any

theorem runs_literalMember (hsees : watch.Sees faults) (hi : InferRuns watch depth infer inferred)
    (hd : inferCount chain = depth) {key : String}
    (hname : Linked watch.scope (⟨.resolve key, marks⟩ :: chain)) :
    ∀ ms : List Node,
      (∀ m ∈ ms, ∀ e ∈ m.children, Linked watch.scope (⟨.infer e, marks⟩ :: chain)) →
      Runs watch chain marks (literalMember infer faults chain watch.scope key ms)
        (Typing.literalMember inferred marks watch.scope key ms)
  | [], _ => runs_pure any
  | m :: ms, hvalue => by
    unfold literalMember Typing.literalMember
    split
    · exact runs_inferField hi hd (hvalue m (by simp)) .value
    · split
      · exact (runs_resolve hsees hi hname hd).outer
      · exact runs_literalMember hsees hi hd hname ms fun m' hm' => hvalue m' (by simp [hm'])

/-- The member of a name: its object stands for a literal, or is inferred. -/
theorem runs_nameMemberType (hsees : watch.Sees faults)
    (hi : InferRuns watch depth infer inferred) {n object : Node}
    (hl : Linked watch.scope (⟨.memberType n, marks⟩ :: chain))
    (hd : inferCount (⟨.memberType n, marks⟩ :: chain) = depth)
    (ho : n.field? .object = some object) (hk : object.unwrap.kind = .identifier) :
    Runs watch (⟨.memberType n, marks⟩ :: chain) marks
      (nameMemberType infer faults (⟨.memberType n, marks⟩ :: chain) watch.scope object.unwrap
        (n.fieldText .property))
      (Typing.nameMemberType inferred marks watch.scope object.unwrap (n.fieldText .property)) := by
  have hobject := (hi _ marks object.unwrap (hl.nest (.object ho)) hd).outer.returning fun type =>
    namedMember type (n.fieldText .property)
  have haccess : accessed? n = some (object.unwrap.text, n.fieldText .property) := by
    simp [accessed?, ho, hk]
  unfold nameMemberType Typing.nameMemberType
  simp only
  cases hv : watch.scope.value? object.unwrap.text with
  | none => exact hobject
  | some literal =>
    simp only
    split
    · refine Runs.once any fun hmark => ?_
      refine runs_literalMember hsees hi hd (hl.nest (.namedName haccess hmark (by simp [hv]))) _
        fun m hm e he => ?_
      exact hl.nest (.namedValue haccess hmark hv (Node.mem_children_of_mem_named hm) he)
    · exact hobject

theorem runs_plainMemberType (hsees : watch.Sees faults)
    (hi : InferRuns watch depth infer inferred) {n object : Node}
    (hl : Linked watch.scope (⟨.memberType n, marks⟩ :: chain))
    (hd : inferCount (⟨.memberType n, marks⟩ :: chain) = depth)
    (ho : n.field? .object = some object) :
    Runs watch (⟨.memberType n, marks⟩ :: chain) marks
      (plainMemberType infer faults (⟨.memberType n, marks⟩ :: chain) watch.scope object.unwrap
        (n.fieldText .property))
      (Typing.plainMemberType inferred marks watch.scope object.unwrap
        (n.fieldText .property)) := by
  unfold plainMemberType Typing.plainMemberType
  split
  · refine runs_literalMember hsees hi hd (hl.nest .literalName) _ fun m hm e he => ?_
    exact hl.nest (.literalValue ho (Node.mem_children_of_mem_named hm) he)
  · exact (hi _ marks object.unwrap (hl.nest (.object ho)) hd).outer.returning _

theorem runs_memberType (hsees : watch.Sees faults) (hi : InferRuns watch depth infer inferred)
    {n : Node} (hl : Linked watch.scope (⟨.memberType n, marks⟩ :: chain))
    (hd : inferCount chain = depth) :
    Runs watch (⟨.memberType n, marks⟩ :: chain) marks (memberType infer faults chain watch.scope n)
      (Typing.memberType inferred marks watch.scope n) := by
  unfold memberType Typing.memberType
  refine Runs.calling hsees hl ?_
  have hd' : inferCount (⟨.memberType n, marks⟩ :: chain) = depth := by
    simpa [inferCount] using hd
  simp only
  split
  · exact runs_pure "number"
  · cases ho : n.field? .object with
    | none => exact runs_pure any
    | some object =>
      simp only [Option.map_some]
      split
      · rename_i hk
        exact runs_nameMemberType hsees hi hl hd' ho (by simpa using hk)
      · exact runs_plainMemberType hsees hi hl hd' ho

/-! ## Expressions -/

theorem runs_nameType (hsees : watch.Sees faults) (hi : InferRuns watch depth infer inferred)
    {name : String} (hl : Linked watch.scope (⟨.resolve name, marks⟩ :: chain))
    (hd : inferCount chain = depth) :
    Runs watch chain marks (nameType infer faults chain watch.scope name)
      (Typing.nameType inferred marks watch.scope name) := by
  unfold nameType Typing.nameType
  split
  · exact runs_pure "undefined"
  · split
    · exact runs_pure "number"
    · exact (runs_resolve hsees hi hl hd).outer

theorem runs_assertedType (hi : InferRuns watch depth infer inferred) {n : Node}
    (hd : inferCount chain = depth)
    (hl : ∀ c ∈ n.children, Linked watch.scope (⟨.infer c, marks⟩ :: chain)) :
    Runs watch chain marks (assertedType infer chain n) (Typing.assertedType inferred marks n) := by
  unfold assertedType Typing.assertedType
  rcases n.named with _ | ⟨e, _ | ⟨type, rest⟩⟩
  · exact runs_inferFirst hi hd hl
  · exact runs_inferFirst hi hd hl
  · exact runs_pure _

/-- **The rule for an expression runs, if the rules for the expressions inside do.** -/
theorem runs_typeOf (hsees : watch.Sees faults) (hi : InferRuns watch depth infer inferred)
    {n : Node} (hl : Linked watch.scope (⟨.infer n, marks⟩ :: chain))
    (hd : inferCount (⟨.infer n, marks⟩ :: chain) = depth) :
    Runs watch (⟨.infer n, marks⟩ :: chain) marks
      (typeOf infer faults (⟨.infer n, marks⟩ :: chain) watch.scope n)
      (Typing.typeOf inferred marks watch.scope n) := by
  have hchild : ∀ c ∈ n.children, Linked watch.scope (⟨.infer c, marks⟩ :: ⟨.infer n, marks⟩ :: chain) :=
    fun c hc => hl.nest (.child hc)
  have hfunction := (runs_functionType hsees hi (hl.nest .function) hd).outer
  unfold typeOf Typing.typeOf
  cases hk : n.kind with
  | identifier => exact runs_nameType hsees hi (hl.nest .name) hd
  | object => exact runs_objectType hsees hi hl hd
  | array => exact runs_arrayType hi hl hd
  | parenthesized => exact runs_inferFirst hi hd hchild
  | satisfies => exact runs_inferFirst hi hd hchild
  | nonNull => exact runs_inferFirst hi hd hchild
  | asExpression => exact runs_assertedType hi hd hchild
  | await => exact (runs_inferFirst hi hd hchild).returning awaited
  | ternary =>
    exact (runs_inferField hi hd hchild .consequence).bind fun yes =>
      (runs_inferField hi hd hchild .alternative).returning fun no => union [yes, no]
  | binary => exact runs_binaryType hi hl hd
  | assignment => exact runs_inferField hi hd hchild .right
  | sequence =>
    simp only
    cases hlast : n.named.getLast? with
    | none => exact runs_pure any
    | some e =>
      have he : e ∈ n.children := Node.mem_children_of_mem_named (List.mem_of_getLast? hlast)
      exact (hi _ marks e (hchild e he) hd).outer
  | functionDeclaration => exact hfunction
  | generatorDeclaration => exact hfunction
  | functionExpression => exact hfunction
  | generatorExpression => exact hfunction
  | arrowFunction => exact hfunction
  | methodDefinition => exact hfunction
  | call => exact (runs_callType hsees hi (hl.nest .call) hd).outer
  | member => exact (runs_memberType hsees hi (hl.nest (.access hk)) hd).outer
  | subscript => exact (runs_inferField hi hd hchild .object).returning elementOf
  | _ => exact runs_pure _

end

/-- **The type of an expression runs.**  It raises an error of its own only in a chain with more types
    than the limit.  Its type is that of the rules of `infer`: with the same limit, or, where such
    chains spoil the result, with any greater one. -/
theorem runs_infer (hsees : watch.Sees faults) {total extra : Nat}
    (hraises : ∀ c, total < inferCount c → watch.raises c)
    (hspoils : extra = 0 ∨ ∀ c, total < inferCount c → watch.spoils c) :
    ∀ limit depth : Nat, depth + limit = total →
      InferRuns watch depth (infer faults watch.scope limit)
        (Typing.infer watch.scope (limit + extra))
  | 0, depth, ht, chain, marks, e, hl, hd => by
    have hdeep : total < inferCount (⟨.infer e, marks⟩ :: chain) := by
      simp only [inferCount, List.countP_cons] at hd ⊢
      simp only [if_true]
      omega
    refine ⟨none, [⟨.infer e, marks⟩ :: chain], fun context hc => ?_, fun c hc => ?_,
      fun _ => ⟨_, List.mem_singleton_self _, hraises _ hdeep⟩, fun hs => ?_⟩
    · subst hc
      exact on_calling_failure faults chain (.infer e) context
    · rw [List.mem_singleton.1 hc]
      exact ⟨hl, List.suffix_refl _⟩
    · rcases hspoils with rfl | hspoils
      · rfl
      · exact absurd (hspoils _ hdeep) (hs _ (List.mem_singleton_self _))
  | limit + 1, depth, ht, chain, marks, e, hl, hd => by
    have hi : InferRuns watch (depth + 1) (infer faults watch.scope limit)
        (Typing.infer watch.scope (limit + extra)) :=
      runs_infer hsees hraises hspoils limit (depth + 1) (by omega)
    rw [show limit + 1 + extra = limit + extra + 1 by omega]
    unfold infer
    refine Runs.calling hsees hl (runs_typeOf hsees hi hl ?_)
    simpa [inferCount] using hd

/-- **Every call runs**, with the type of the rules of `infer`. -/
theorem runs_perform (hsees : watch.Sees faults) {limit extra : Nat}
    (hraises : ∀ c, inferCount chain + limit < inferCount c → watch.raises c)
    (hspoils : extra = 0 ∨ ∀ c, inferCount chain + limit < inferCount c → watch.spoils c)
    {call : Call} (hl : Linked watch.scope (⟨call, marks⟩ :: chain)) :
    Runs watch (⟨call, marks⟩ :: chain) marks (perform faults watch.scope limit chain call)
      (answer watch.scope (limit + extra) marks call) := by
  have hi := runs_infer hsees hraises hspoils limit (inferCount chain) rfl
  cases call with
  | infer e => exact hi chain marks e hl rfl
  | resolve name => exact runs_resolve hsees hi hl rfl
  | functionType f => exact runs_functionType hsees hi hl rfl
  | returnType f => exact runs_returnType hsees hi hl rfl
  | callType n => exact runs_callType hsees hi hl rfl
  | memberType n => exact runs_memberType hsees hi hl rfl

end RouteAtlas.Typing.Context
