/-
  RouteAtlas: signatures of routes.

  The signature of a route is what its handler is declared as, what it gives and what it asks the query
  for; where the route is, and what is said about it, are no part of it.

  * `MethodTable.seen view table` is a table as far as a view of its routes goes;
  * `seenTable view` is the table of a module as far as a view goes, and `signatures` as far as
    signatures go; `seenTable_congr`: two modules have the same table as far as a view goes if their
    handlers have the same routes as far as it goes, and fail alike;
  * `signatures_of_match`: modules whose statements match have the same signatures;
  * `Reads accessors ss root` says that a module reads as given statements: it has the signatures of
    `moduleOf ss`.
-/
import RouteAtlas.Proofs.Handler.Matching
import RouteAtlas.Proofs.Route.Table

namespace RouteAtlas

/-- What a handler is declared as, what it gives, and the names that it asks the query for. -/
structure Signature where
  declaredType : String
  returnType : String
  queryParameters : List String
  deriving DecidableEq, Repr

/-- The signature of a route. -/
def Route.signature (r : Route) : Signature :=
  ⟨r.declaredType, r.returnType, r.queryParameters⟩

/-- A signature but for what the handler gives. -/
def Signature.asked (s : Signature) : String × List String :=
  (s.declaredType, s.queryParameters)

/-! ## Views of tables -/

/-- A table as far as a view of its routes goes. -/
def MethodTable.seen {β : Type} (view : Route → β) (table : MethodTable) : List (Method × β) :=
  table.map fun e => (e.1, view e.2)

/-- What is seen further of what is seen of a table. -/
theorem MethodTable.seen_comp {β γ : Type} (further : β → γ) (view : Route → β) (table : MethodTable) :
    table.seen (further ∘ view) = (table.seen view).map fun e => (e.1, further e.2) := by
  unfold seen
  rw [List.map_map]
  rfl

/-- What is seen of a table behind a change depends on what was seen of it before. -/
theorem MethodTable.seen_set {β : Type} {view : Route → β} {r r' : Route} (method : Method)
    (hr : view r = view r') : ∀ {table table' : MethodTable}, table.seen view = table'.seen view →
      (table.set method r).seen view = (table'.set method r').seen view
  | [], [], _ => by simp [set, seen, hr]
  | [], _ :: _, h => by simp [seen] at h
  | _ :: _, [], h => by simp [seen] at h
  | (m, old) :: table, (m', old') :: table', h => by
    simp only [seen, List.map_cons, List.cons.injEq, Prod.mk.injEq] at h
    obtain ⟨⟨rfl, hold⟩, h⟩ := h
    unfold set
    split
    · simpa [seen, hr] using h
    · simpa [seen, hold] using seen_set method hr h

namespace Analysis

open RouteAtlas.Code RouteAtlas.Handler RouteAtlas.Recording RouteAtlas.Typing

section
variable {β : Type} {view : Route → β} {settings : Settings} {limit limit' : Nat} (file : String)
  {root root' : Node}

/-- The table of a module as far as a view of its routes goes, or how it fails. -/
def seenTable (view : Route → β) (settings : Settings) (limit : Nat) (file : String) (root : Node) :
    Except Failure (List (Method × β)) :=
  (outcome (tableOf settings limit file root)).map (MethodTable.seen view)

/-- The routes of two handlers are the same as far as a view goes, wherever their file is. -/
def RoutesSeen (view : Route → β) (settings : Settings) (limit limit' : Nat) (root root' : Node)
    (d d' : FunctionDeclaration) : Prop :=
  ∀ path method, view (routeFrom settings limit root path method d) =
    view (routeFrom settings limit' root' path method d')

/-- A table in progress as far as a view goes. -/
def Progress.seen (view : Route → β) (p : Progress) : Option String × List (Method × β) :=
  (p.path, p.table.seen view)

/-- A configured method adds the same as far as a view goes. -/
theorem outcome_addMethod_seen {exported exported' : Declarations} {word : String}
    (h : Option.Rel (RoutesSeen view settings limit limit' root root') (handler? exported word)
      (handler? exported' word)) {p p' : Progress} (hp : p.seen view = p'.seen view) :
    (outcome (addMethod settings limit file root exported p word)).map (Progress.seen view) =
      (outcome (addMethod settings limit' file root' exported' p' word)).map (Progress.seen view) := by
  obtain ⟨hpath, htable⟩ := Prod.mk.inj hp
  obtain ⟨hh, hh'⟩ | ⟨d, d', hh, hh', hd⟩ := rel_cases h
  · rw [outcome_addMethod_none settings limit file root hh,
      outcome_addMethod_none settings limit' file root' hh']
    exact congrArg Except.ok hp
  · cases hw : Method.ofWord? word with
    | none =>
      rw [outcome_addMethod_handled settings limit file root hh,
        outcome_addMethod_handled settings limit' file root' hh', hpath]
      cases outcome (pathOf settings file p'.path) with
      | error e => rfl
      | ok path =>
        simp only [Except.bind]
        rw [outcome_routeOf_unknown settings limit file root hw,
          outcome_routeOf_unknown settings limit' file root' hw]
        rfl
    | some method =>
      rw [outcome_addMethod_some settings limit file root hh hw,
        outcome_addMethod_some settings limit' file root' hh' hw, hpath]
      cases outcome (pathOf settings file p'.path) with
      | error e => rfl
      | ok path =>
        exact congrArg (fun seen => Except.ok (some path, seen))
          (MethodTable.seen_set method (hd path method) htable)

theorem outcome_addMethods_seen {exported exported' : Declarations} :
    ∀ {words : List String}, (∀ word ∈ words, Option.Rel
        (RoutesSeen view settings limit limit' root root') (handler? exported word)
          (handler? exported' word)) → ∀ {p p' : Progress}, p.seen view = p'.seen view →
      (outcome (words.foldlM (addMethod settings limit file root exported) p)).map
          (Progress.seen view) =
        (outcome (words.foldlM (addMethod settings limit' file root' exported') p')).map
          (Progress.seen view)
  | [], _, _, _, hp => congrArg Except.ok hp
  | word :: words, h, p, p', hp => by
    obtain ⟨hword, hwords⟩ := List.forall_mem_cons.1 h
    have hstep := outcome_addMethod_seen file hword hp
    rw [List.foldlM_cons, List.foldlM_cons,
      outcome_bind _ fun q => steady_foldlM (steady_addMethod settings limit file root _) words q,
      outcome_bind _ fun q => steady_foldlM (steady_addMethod settings limit' file root' _) words q]
    revert hstep
    cases outcome (addMethod settings limit file root exported p word) with
    | error e =>
      cases outcome (addMethod settings limit' file root' exported' p' word) with
      | error e' => exact id
      | ok q' => exact fun h => nomatch h
    | ok q =>
      cases outcome (addMethod settings limit' file root' exported' p' word) with
      | error e' => exact fun h => nomatch h
      | ok q' => exact fun h => outcome_addMethods_seen hwords (Except.ok.inj h)

/-- **Two modules have the same table as far as a view goes**, and fail alike, if their handlers of the
    configured methods have the same routes as far as it goes. -/
theorem seenTable_congr
    (h : ∀ word ∈ settings.methods, Option.Rel (RoutesSeen view settings limit limit' root root')
      (handler? (exports root) word) (handler? (exports root') word)) :
    seenTable view settings limit file root = seenTable view settings limit' file root' := by
  have hall := @outcome_addMethods_seen _ _ _ _ _ file _ _ _ _ _ h {} {} rfl
  unfold seenTable tableOf
  rw [outcome_bind _ fun _ => steady_pure _, outcome_bind _ fun _ => steady_pure _]
  have hfirst := congrArg (Except.map Prod.snd) hall
  revert hfirst
  cases outcome (settings.methods.foldlM (addMethod settings limit file root (exports root)) {}) <;>
    cases outcome
      (settings.methods.foldlM (addMethod settings limit' file root' (exports root')) {}) <;>
    exact id

end

/-! ## Modules that match -/

/-- The signatures of a module, or how it fails. -/
def signatures (settings : Settings) (limit : Nat) (file : String) (root : Node) :
    Except Failure (List (Method × Signature)) :=
  seenTable Route.signature settings limit file root

section
variable {settings : Settings} {limit : Nat} {file : String} {root root' : Node}
  {Twin : Node → Node → Prop}

theorem declaredType_of_handlerTypes? {d : FunctionDeclaration} {types : HandlerTypes}
    (h : handlerTypes? settings limit root d = some types) :
    declaredType (Scope.of root (some d.function)) limit d = some types.declared := by
  obtain ⟨response, -, h⟩ := Option.bind_eq_some_iff.1 h
  obtain ⟨declared, hdeclared, h⟩ := Option.bind_eq_some_iff.1 h
  cases h
  exact hdeclared

theorem responseType_of_handlerTypes? {d : FunctionDeclaration} {types : HandlerTypes}
    (h : handlerTypes? settings limit root d = some types) :
    responseType (Scope.of root (some d.function)) limit settings.responseHelpers d =
      some types.response := by
  obtain ⟨response, hresponse, h⟩ := Option.bind_eq_some_iff.1 h
  obtain ⟨declared, -, h⟩ := Option.bind_eq_some_iff.1 h
  cases h
  exact hresponse

/-- What is seen further is the same where what is seen is. -/
theorem seenTable_comp {β γ : Type} (further : β → γ) {view : Route → β} {limit' : Nat}
    (h : seenTable view settings limit file root = seenTable view settings limit' file root') :
    seenTable (further ∘ view) settings limit file root =
      seenTable (further ∘ view) settings limit' file root' := by
  unfold seenTable at h ⊢
  revert h
  cases outcome (tableOf settings limit file root) with
  | error e =>
    cases outcome (tableOf settings limit' file root') with
    | error e' => exact fun h => congrArg Except.error (Except.error.inj h)
    | ok table' => exact nofun
  | ok table =>
    cases outcome (tableOf settings limit' file root') with
    | error e' => exact nofun
    | ok table' =>
      intro h
      have h : table.seen view = table'.seen view := Except.ok.inj h
      exact congrArg Except.ok (by rw [MethodTable.seen_comp, MethodTable.seen_comp, h])

/-- The same shown types and queries make the same signature. -/
theorem routesSeen_signature {d d' : FunctionDeclaration} {limit' : Nat}
    (htypes : shownTypes settings limit root d = shownTypes settings limit' root' d')
    (hqueries : queryParameters settings.queryAccessors d =
      queryParameters settings.queryAccessors d') :
    RoutesSeen Route.signature settings limit limit' root root' d d' := by
  intro path method
  simp only [Route.signature, routeFrom, htypes, hqueries]

/-- Names of two modules are bound to counterparts, in the same order. -/
def NamesResemble (settings : Settings) (Twin : Node → Node → Prop)
    (e e' : String × Binding) : Prop :=
  e.1 = e'.1 ∧ Binding.Resembles (Counterpart settings.queryAccessors Twin) e.2 e'.2

/-- The statements of two modules match one by one, up to twins. -/
def ModulesMatch (settings : Settings) (Twin : Node → Node → Prop) (root root' : Node) : Prop :=
  List.Forall₂ (StatementsMatch (NamesResemble settings Twin)
    (HandlesAlike settings.queryAccessors settings.responseHelpers Twin)) root.operands root'.operands

/-- Modules that differ in one statement match, as far as the statements do. -/
theorem statements_match {Entries : String × Binding → String × Binding → Prop}
    {Handlers : FunctionDeclaration → FunctionDeclaration → Prop}
    (hentries : ∀ e e', NamesResemble settings Twin e e' → Entries e e')
    (hhandlers : ∀ d d', HandlesAlike settings.queryAccessors settings.responseHelpers Twin d d' →
      Handlers d d')
    {s s' : Node} (h : StatementsMatch Entries Handlers s s') (before after : List Node) :
    List.Forall₂ (StatementsMatch Entries Handlers) (before ++ s :: after) (before ++ s' :: after) := by
  have hsame : ∀ ss : List Node, List.Forall₂ (StatementsMatch Entries Handlers) ss ss := fun ss =>
    List.forall₂_same.2 fun s _ => (statementsMatch_of_alike (ReadsAlike.refl s)).imp hhandlers hentries
  exact List.rel_append (hsame before) (.cons h (hsame after))

/-- Handlers of modules whose statements match are related as the declarations are. -/
theorem handler?_match {Entries : String × Binding → String × Binding → Prop}
    {Handlers : FunctionDeclaration → FunctionDeclaration → Prop}
    (h : List.Forall₂ (StatementsMatch Entries Handlers) root.operands root'.operands)
    (hbody : ∀ d d', Handlers d d' → d.hasBody = d'.hasBody) (word : String) :
    Option.Rel Handlers (handler? (exports root) word) (handler? (exports root') word) := by
  unfold handler?
  rw [exports_of, exports_of]
  exact implementation?_match h hbody word

variable (h : ModulesMatch settings Twin root root')
include h

/-- Handlers of modules that match have the same types. -/
theorem handlerTypes?_match {d d' : FunctionDeclaration}
    (ht : AreTwins settings.queryAccessors Twin (Scope.of root (some d.function)))
    (hd : HandlesAlike settings.queryAccessors settings.responseHelpers Twin d d') :
    handlerTypes? settings limit root d = handlerTypes? settings limit root' d' := by
  have hscope := Scope.Resembles.of_entries hd.names (moduleBindings_match h)
  have hresponse := responseType_match hscope ht limit hd.responses
  have hdeclared := declaredType_match hscope ht limit hd.toDeclaresAlike
  simp only [handlerTypes?, hresponse, hdeclared]

/-- **Modules whose statements match have the same signatures**, at every limit and for every place of
    their file, and fail alike. -/
theorem signatures_of_match
    (ht : ∀ word ∈ settings.methods, ∀ d ∈ handler? (exports root) word,
      AreTwins settings.queryAccessors Twin (Scope.of root (some d.function))) :
    signatures settings limit file root = signatures settings limit file root' := by
  refine seenTable_congr file fun word hw => ?_
  have hhandler := handler?_match h (fun _ _ hd => hd.hasBody) word
  obtain ⟨hh, hh'⟩ | ⟨d, d', hh, hh', hd⟩ := rel_cases hhandler <;> rw [hh, hh']
  · exact .none
  · refine .some (routesSeen_signature ?_ hd.queries)
    unfold shownTypes
    rw [handlerTypes?_match h (ht word hw d hh) hd]

end

/-! ## Modules of statements -/

/-- A module with given statements. -/
def moduleOf (ss : List Node) : Node :=
  .planted .program none "" ss

/-- A module reads as given statements: its own are those, up to their positions and to comments that
    leave them as they read. -/
def Reads (accessors : List String) (ss : List Node) (root : Node) : Prop :=
  List.Forall₂ (ReadsAlike accessors) ss root.operands

/-- Checks that a module reads as given statements. -/
def reads? (accessors : List String) (ss : List Node) (root : Node) : Bool :=
  ss.length == root.operands.length && (ss.zip root.operands).all fun pair => alike? accessors pair.1 pair.2

theorem reads_of_check {accessors : List String} {ss : List Node} {root : Node}
    (h : reads? accessors ss root = true) : Reads accessors ss root := by
  rw [reads?, Bool.and_eq_true, beq_iff_eq] at h
  exact List.forall₂_iff_zip.2 ⟨h.1, fun hpair => alike_of_check (List.all_eq_true.1 h.2 _ hpair)⟩

section
variable {settings : Settings} {limit : Nat} {ss : List Node} {root : Node}

theorem operands_moduleOf {accessors : List String} (h : Reads accessors ss root) :
    (moduleOf ss).operands = ss := by
  have hfiltered : List.Forall₂ (ReadsAlike accessors) (moduleOf ss).operands
      ((root.operands.filter Node.isNamed).filter fun c => !c.isComment) :=
    List.rel_filter (fun _ _ hc => by simp [Node.isComment, hc.kind])
      (List.rel_filter (fun _ _ hc => by simp [Node.isNamed, hc.kind]) h)
  have hoperands : ((root.operands.filter Node.isNamed).filter fun c => !c.isComment) =
      root.operands := by
    unfold Node.operands Node.named
    simp [List.filter_filter, Bool.and_left_comm]
  rw [hoperands] at hfiltered
  refine (List.filter_sublist.trans List.filter_sublist).eq_of_length ?_
  exact hfiltered.length_eq.trans h.length_eq.symm

theorem Reads.match (h : Reads settings.queryAccessors ss root) :
    ModulesMatch settings (fun _ _ => False) (moduleOf ss) root := by
  unfold ModulesMatch
  rw [operands_moduleOf h]
  exact h.imp fun s s' hs => statementsMatch_of_alike hs

/-- A module has the signatures of what it reads as. -/
theorem Reads.signatures (h : Reads settings.queryAccessors ss root) (file : String) :
    signatures settings limit file (moduleOf ss) = signatures settings limit file root :=
  signatures_of_match h.match fun _ _ _ _ => areTwins_none _ _

end

end Analysis

end RouteAtlas
