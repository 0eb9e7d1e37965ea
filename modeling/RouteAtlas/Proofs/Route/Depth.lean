/-
  RouteAtlas: handlers whose types nest too deep.

  A limit on how deep types nest touches the types of the handlers that exceed it, and nothing else.

  * `tooDeep` says that the handler of a configured method exceeds a limit, and `Ample` that none does:
    every high limit is ample (`exists_ample`), and at all ample limits the routes are the same;
  * `cutAt` takes both types of a route away whose handler exceeds a limit.  The table at a limit is the
    one at an ample limit, cut (`outcome_tableOf_cut`);
  * `too_deep_isolated` is the analysis of a file at a limit against the one at an ample limit.
-/
import RouteAtlas.Proofs.Route.Guesses
import RouteAtlas.Proofs.Route.Table
import RouteAtlas.Proofs.Typing.Limit

namespace RouteAtlas

/-! ## Types that are not known -/

/-- A route of which neither type is known. -/
def Route.untyped (unknown : String) (r : Route) : Route :=
  { r with declaredType := unknown, returnType := unknown }

/-- A change of routes by their methods goes through the table. -/
theorem MethodTable.map_set (change : Method × Route → Route) (table : MethodTable) (method : Method)
    (route : Route) :
    (table.set method route).map (fun e => (e.1, change e)) =
      MethodTable.set (table.map fun e => (e.1, change e)) method (change (method, route)) := by
  induction table with
  | nil => rfl
  | cons entry table ih =>
    obtain ⟨m, r⟩ := entry
    unfold MethodTable.set
    by_cases hm : m = method
    · subst hm
      simp
    · simp only [beq_iff_eq, hm, if_false, List.map_cons, ih]

namespace Analysis

open RouteAtlas.Code RouteAtlas.Handler RouteAtlas.Recording RouteAtlas.Typing

/-! ## Types at different limits -/

section
variable {settings : Settings} {limit limit' : Nat} {root : Node} {d : FunctionDeclaration}
  {types types' : HandlerTypes}

/-- The types of a handler stay what they are at a higher limit. -/
theorem handlerTypes?_mono (more : Nat) (h : handlerTypes? settings limit root d = some types) :
    handlerTypes? settings (limit + more) root d = some types := by
  obtain ⟨response, hresponse, h⟩ := Option.bind_eq_some_iff.1 h
  obtain ⟨declared, hdeclared, h⟩ := Option.bind_eq_some_iff.1 h
  exact Option.bind_eq_some_iff.2 ⟨response, responseType_mono more hresponse,
    Option.bind_eq_some_iff.2 ⟨declared, declaredType_mono more hdeclared, h⟩⟩

/-- Two limits that a handler stays within give it the same types. -/
theorem handlerTypes?_agree (h : handlerTypes? settings limit root d = some types)
    (h' : handlerTypes? settings limit' root d = some types') : types = types' := by
  have hsum := handlerTypes?_mono limit' h
  have hsum' := handlerTypes?_mono limit h'
  rw [Nat.add_comm, hsum] at hsum'
  exact Option.some.inj hsum'

/-- A handler has types at all high limits. -/
theorem exists_handlerTypes? (settings : Settings) (hd : d.node ∈ root.preorder) (hf : d.function ∈ root.preorder)
    (hl : chainBound root (Scope.of root (some d.function)) ≤ limit) :
    ∃ types, handlerTypes? settings limit root d = some types := by
  have hs : ScopeWithin root (Scope.of root (some d.function)) :=
    scopeOf_within fun f h => by cases h; exact hf
  obtain ⟨response, hresponse⟩ := exists_responseType hs hd hl settings.responseHelpers
  obtain ⟨declared, hdeclared⟩ := exists_declaredType hs hf hl
  exact ⟨⟨declared, response⟩, Option.bind_eq_some_iff.2 ⟨response, hresponse,
    Option.bind_eq_some_iff.2 ⟨declared, hdeclared, rfl⟩⟩⟩

end

/-! ## Handlers that exceed a limit -/

section
variable (settings : Settings) (limit : Nat) (root : Node)

/-- The handler of a configured method exceeds a limit. -/
def tooDeep (word : String) : Bool :=
  (handler? (exports root) word).any fun d => (handlerTypes? settings limit root d).isNone

/-- The handler of a configured method has no response. -/
def hasNoResponse (word : String) : Bool :=
  (handler? (exports root) word).any fun d => (responses settings.responseHelpers d).isEmpty

/-- No handler of a module exceeds a limit. -/
def Ample : Prop :=
  ∀ word ∈ settings.methods, tooDeep settings limit root word = false

instance : Decidable (Ample settings limit root) :=
  inferInstanceAs (Decidable (∀ word ∈ settings.methods, _))

/-- A route at a limit: without its types if its handler exceeds the limit. -/
def cutAt (entry : Method × Route) : Route :=
  if tooDeep settings limit root entry.1.word then entry.2.untyped settings.unknownType else entry.2

/-- A table in progress at a limit. -/
def Progress.cutAt (p : Progress) : Progress :=
  { p with table := p.table.map fun e => (e.1, Analysis.cutAt settings limit root e) }

end

variable {settings : Settings} {limit ample : Nat} {file : String} {root : Node}

theorem handler?_standsIn {word : String} {d : FunctionDeclaration}
    (h : handler? (exports root) word = some d) :
    d.node ∈ root.preorder ∧ d.function ∈ root.preorder := by
  unfold handler? at h
  rw [exports_of] at h
  obtain ⟨before, after, hlist, -⟩ := (implementation?_eq_some_iff _ d).1 h
  have hmem : Declaration.function d ∈ exportList root word := by rw [hlist]; simp
  exact exportList_standsIn hmem d rfl

theorem exists_not_tooDeep (settings : Settings) (root : Node) (word : String) :
    ∃ bound, ∀ limit, bound ≤ limit → tooDeep settings limit root word = false := by
  unfold tooDeep
  cases hh : handler? (exports root) word with
  | none => exact ⟨0, fun _ _ => rfl⟩
  | some d =>
    obtain ⟨hd, hf⟩ := handler?_standsIn hh
    refine ⟨chainBound root (Scope.of root (some d.function)), fun limit hl => ?_⟩
    obtain ⟨types, htypes⟩ := exists_handlerTypes? settings hd hf hl
    simp [htypes]

/-- **Every high limit is ample.** -/
theorem exists_ample (settings : Settings) (root : Node) :
    ∃ bound, ∀ limit, bound ≤ limit → Ample settings limit root := by
  choose bound hbound using exists_not_tooDeep settings root
  refine ⟨(settings.methods.map bound).sum, fun limit hl word hw => hbound word limit ?_⟩
  exact (List.le_sum_of_mem (List.mem_map_of_mem hw)).trans hl

theorem tooDeep_of_handler {word : String} {d : FunctionDeclaration}
    (h : handler? (exports root) word = some d) :
    tooDeep settings limit root word = (handlerTypes? settings limit root d).isNone := by
  simp [tooDeep, h]

theorem Ample.types (ha : Ample settings ample root) {word : String} {d : FunctionDeclaration}
    (hw : word ∈ settings.methods) (h : handler? (exports root) word = some d) :
    ∃ types, handlerTypes? settings ample root d = some types := by
  have hfine := ha word hw
  rw [tooDeep_of_handler h] at hfine
  exact Option.isSome_iff_exists.1 (by simpa using hfine)

/-! ## The table at a limit -/

/-- The route of a handler at a limit. -/
theorem routeFrom_cut {word : String} {method : Method} {d : FunctionDeclaration}
    (ha : Ample settings ample root) (hw : word ∈ settings.methods)
    (hm : Method.ofWord? word = some method) (h : handler? (exports root) word = some d)
    (path : String) :
    routeFrom settings limit root path method d =
      cutAt settings limit root (method, routeFrom settings ample root path method d) := by
  obtain ⟨types, htypes⟩ := ha.types hw h
  unfold cutAt
  rw [Method.ofWord?_eq_some_iff.1 hm, tooDeep_of_handler h]
  cases hlimit : handlerTypes? settings limit root d with
  | none => simp [routeFrom, shownTypes, hlimit, Route.untyped]
  | some types' =>
    cases handlerTypes?_agree hlimit htypes
    simp [routeFrom, shownTypes, hlimit, htypes]

/-- A configured method adds the same at a limit as at an ample one, cut. -/
theorem outcome_addMethod_cut (ha : Ample settings ample root) {word : String}
    (hw : word ∈ settings.methods) (p : Progress) :
    outcome (addMethod settings limit file root (exports root) (p.cutAt settings limit root) word) =
      (outcome (addMethod settings ample file root (exports root) p word)).map
        (Progress.cutAt settings limit root) := by
  cases hh : handler? (exports root) word with
  | none =>
    rw [outcome_addMethod_none settings limit file root hh,
      outcome_addMethod_none settings ample file root hh]
    rfl
  | some d =>
    cases hm : Method.ofWord? word with
    | none =>
      rw [outcome_addMethod_handled settings limit file root hh,
        outcome_addMethod_handled settings ample file root hh]
      show (outcome (pathOf settings file p.path)).bind _ = _
      cases outcome (pathOf settings file p.path) with
      | error e => rfl
      | ok path =>
        show (outcome (routeOf settings limit file word path root d)).map _ =
          ((outcome (routeOf settings ample file word path root d)).map _).map _
        rw [outcome_routeOf_unknown settings limit file root hm,
          outcome_routeOf_unknown settings ample file root hm]
        rfl
    | some method =>
      rw [outcome_addMethod_some settings limit file root hh hm,
        outcome_addMethod_some settings ample file root hh hm]
      show (outcome (pathOf settings file p.path)).map _ = _
      cases outcome (pathOf settings file p.path) with
      | error e => rfl
      | ok path =>
        have hcut : routeFrom settings limit root path method d =
            cutAt settings limit root (method, routeFrom settings ample root path method d) :=
          routeFrom_cut ha hw hm hh path
        simp only [Except.map, Progress.cutAt, MethodTable.map_set, ← hcut]

theorem outcome_addMethods_cut (ha : Ample settings ample root) :
    ∀ (words : List String) (p : Progress), (∀ word ∈ words, word ∈ settings.methods) →
      outcome (words.foldlM (addMethod settings limit file root (exports root))
          (p.cutAt settings limit root)) =
        (outcome (words.foldlM (addMethod settings ample file root (exports root)) p)).map
          (Progress.cutAt settings limit root)
  | [], p, _ => rfl
  | word :: words, p, hall => by
    obtain ⟨hw, hall⟩ := List.forall_mem_cons.1 hall
    rw [List.foldlM_cons, List.foldlM_cons,
      outcome_bind _ fun q => steady_foldlM (steady_addMethod settings limit file root _) words q,
      outcome_bind _ fun q => steady_foldlM (steady_addMethod settings ample file root _) words q,
      outcome_addMethod_cut ha hw]
    cases outcome (addMethod settings ample file root (exports root) p word) with
    | error e => rfl
    | ok q => exact outcome_addMethods_cut ha words q hall

/-- **The table of a module at a limit is the one at an ample limit, cut.** -/
theorem outcome_tableOf_cut (ha : Ample settings ample root) :
    outcome (tableOf settings limit file root) =
      (outcome (tableOf settings ample file root)).map fun table =>
        table.map fun e => (e.1, cutAt settings limit root e) := by
  have h : outcome (settings.methods.foldlM (addMethod settings limit file root (exports root)) {}) =
      (outcome (settings.methods.foldlM (addMethod settings ample file root (exports root)) {})).map
        (Progress.cutAt settings limit root) :=
    outcome_addMethods_cut ha settings.methods {} fun _ hw => hw
  unfold tableOf
  rw [outcome_bind _ fun _ => steady_pure _, outcome_bind _ fun _ => steady_pure _, h]
  cases outcome (settings.methods.foldlM (addMethod settings ample file root (exports root)) {}) <;>
    rfl

/-! ## How many guesses there are -/

/-- The types of a handler have a response exactly if the handler has one. -/
theorem response_isNone {d : FunctionDeclaration} {types : HandlerTypes}
    (h : handlerTypes? settings limit root d = some types) :
    types.response.isNone = (responses settings.responseHelpers d).isEmpty := by
  obtain ⟨response, hresponse, h⟩ := Option.bind_eq_some_iff.1 h
  obtain ⟨declared, -, h⟩ := Option.bind_eq_some_iff.1 h
  cases h
  unfold responseType at hresponse
  cases hes : responses settings.responseHelpers d with
  | nil =>
    rw [hes] at hresponse
    cases hresponse
    rfl
  | cons e es =>
    rw [hes] at hresponse
    obtain ⟨shown, -, h⟩ := Option.map_eq_some_iff.1 hresponse
    cases h
    rfl

/-- Types that nest too deep are a guess, which is counted once. -/
theorem count_tooDeep (word : String) :
    (guessesFor settings limit root word).count "type_too_deep" =
      if tooDeep settings limit root word then 1 else 0 := by
  cases hh : handler? (exports root) word with
  | none => simp [guessesFor, tooDeep, hh]
  | some d =>
    rw [guessesFor_of_handler hh, tooDeep_of_handler hh]
    unfold guesses
    split <;> split <;> rfl

/-- The response of a handler is not known if its types nest too deep, or if it has none. -/
theorem shownTypes_response_isNone {word : String} {d : FunctionDeclaration}
    (h : handler? (exports root) word = some d) :
    (shownTypes settings limit root d).response.isNone =
      (tooDeep settings limit root word || hasNoResponse settings root word) := by
  have hmute : hasNoResponse settings root word = (responses settings.responseHelpers d).isEmpty := by
    simp [hasNoResponse, h]
  rw [tooDeep_of_handler h, hmute]
  unfold shownTypes
  cases htypes : handlerTypes? settings limit root d with
  | none => rfl
  | some types => exact response_isNone htypes

/-- A response that is not known is a guess, which is counted once. -/
theorem count_unknown (word : String) :
    (guessesFor settings limit root word).count "return_type_unknown" =
      if tooDeep settings limit root word || hasNoResponse settings root word then 1 else 0 := by
  cases hh : handler? (exports root) word with
  | none => simp [guessesFor, tooDeep, hasNoResponse, hh]
  | some d =>
    rw [guessesFor_of_handler hh, ← shownTypes_response_isNone hh]
    unfold guesses
    split <;> split <;> rfl

theorem count_flatMap_eq_countP {α β : Type} [BEq β] {f : α → List β} {b : β} {p : α → Bool}
    (h : ∀ a, (f a).count b = if p a then 1 else 0) :
    ∀ as : List α, (as.flatMap f).count b = as.countP p
  | [] => rfl
  | a :: as => by
    rw [List.flatMap_cons, List.count_append, count_flatMap_eq_countP h as, List.countP_cons, h,
      Nat.add_comm]

/-! ## Files -/

variable {t : FileTree}

/-- The analysis of a file fails at all limits or at none. -/
theorem analyze_error_congr (limit limit' : Nat) (e : Failure) :
    outcome (analyze t settings file limit) = .error e ↔
      outcome (analyze t settings file limit') = .error e := by
  cases hroot : outcome (readFile t file) with
  | error e' => rw [outcome_analyze, outcome_analyze, hroot]; rfl
  | ok root =>
    obtain ⟨bound, hbound⟩ := exists_ample settings root
    have hfails : ∀ limit, outcome (analyze t settings file limit) = .error e ↔
        outcome (tableOf settings bound file root) = .error e := by
      intro limit
      rw [outcome_analyze_module hroot, outcome_tableOf_cut (hbound bound (Nat.le_refl _))]
      cases outcome (tableOf settings bound file root) <;> simp [Except.map]
    rw [hfails, hfails]

/-- **Types that nest too deep are lost alone.**  However deep types nest, the analysis of a file fails at
    all limits or at none, and a handler that has types at a limit has the same ones at a higher limit.
    All high limits of a module are ample.  The table at a limit has the same methods as the table at an
    ample limit, in the same order, and the same routes, except that a route whose handler exceeds the
    limit has neither type.  Each entry of the configured methods whose handler exceeds the limit counts
    one fallback for types that are too deep, and one for a response that is not known; the latter counts
    besides where a handler has no response. -/
theorem too_deep_isolated (t : FileTree) (settings : Settings) (file : String) :
    (∀ limit limit' e, outcome (analyze t settings file limit) = .error e ↔
      outcome (analyze t settings file limit') = .error e) ∧
    (∀ root limit limit' d types, limit ≤ limit' →
      handlerTypes? settings limit root d = some types →
        handlerTypes? settings limit' root d = some types) ∧
    ∀ root, outcome (readFile t file) = .ok root →
      (∃ bound, ∀ limit, bound ≤ limit → Ample settings limit root) ∧
      ∀ ample, Ample settings ample root →
        ∀ full, outcome (analyze t settings file ample) = .ok full →
          ∀ limit, ∃ table, outcome (analyze t settings file limit) = .ok table ∧
            List.Forall₂ (fun whole shown => shown.1 = whole.1 ∧
              shown.2 = if tooDeep settings limit root whole.1.word then
                  whole.2.untyped settings.unknownType else whole.2) full table ∧
            ∀ j, let before := j.metrics.counts.fallbacks
              let after := (journal (analyze t settings file limit) j).metrics.counts.fallbacks
              after "type_too_deep" =
                before "type_too_deep" + settings.methods.countP (tooDeep settings limit root) ∧
              after "return_type_unknown" = before "return_type_unknown" +
                settings.methods.countP fun word =>
                  tooDeep settings limit root word || hasNoResponse settings root word := by
  refine ⟨fun limit limit' e => analyze_error_congr limit limit' e,
    fun root limit limit' d types hl h => ?_,
    fun root hroot => ⟨exists_ample settings root, fun ample ha full hfull limit => ?_⟩⟩
  · obtain ⟨more, rfl⟩ := Nat.exists_eq_add_of_le hl
    exact handlerTypes?_mono more h
  have hok : outcome (analyze t settings file limit) =
      .ok (full.map fun e => (e.1, cutAt settings limit root e)) := by
    rw [outcome_analyze_module hroot] at hfull ⊢
    rw [outcome_tableOf_cut ha, hfull]
    rfl
  refine ⟨_, hok, ?_, fun j => ⟨?_, ?_⟩⟩
  · rw [List.forall₂_map_right_iff, List.forall₂_same]
    exact fun e _ => ⟨rfl, rfl⟩
  · rw [← count_flatMap_eq_countP count_tooDeep]
    exact fallsBack_analyze (by decide) (by decide) hroot hok j
  · rw [← count_flatMap_eq_countP count_unknown]
    exact fallsBack_analyze (by decide) (by decide) hroot hok j

/-- A module with a handler whose type nests deeper than that of another one. -/
def nestedSource : String := "export let GET=()=>1,PUT=()=>[1]"

/-- A project with this module. -/
def nestedProject : FileTree :=
  { root := [("src", .directory [("routes", .directory [("+server.ts", .file nestedSource.toUTF8)])])] }

/-- A route of this module. -/
def nestedRoute (method : Method) (declaredType : String) : Route :=
  { method, declaredType, returnType := "any", documentation := none, queryParameters := []
    bodyType := none, urls := ["/"], path := "/" }

/-- At a limit of one the type of one of the handlers is lost. -/
theorem too_deep_isolated_nested :
    ∃ root, outcome (readFile nestedProject "/src/routes/+server.ts") = .ok root ∧
      Ample {} 2 root ∧
      (∃ d ∈ handler? (exports root) "GET", ∀ limit, 1 ≤ limit →
        handlerTypes? {} limit root d = some ⟨"() => number", none⟩) ∧
      outcome (analyze nestedProject {} "/src/routes/+server.ts" 2) =
        .ok [(.get, nestedRoute .get "() => number"), (.put, nestedRoute .put "() => number[]")] ∧
      outcome (analyze nestedProject {} "/src/routes/+server.ts" 1) =
        .ok [(.get, nestedRoute .get "() => number"), (.put, nestedRoute .put "any")] ∧
      let after := (journal (analyze nestedProject {} "/src/routes/+server.ts" 1) {}).metrics.counts
      after.fallbacks "type_too_deep" = 1 ∧ after.fallbacks "return_type_unknown" = 2 := by
  have hdecoded : Text.decoded nestedSource.toUTF8 = some nestedSource := by decide +kernel
  have hbytes : nestedProject.read (.ofText "/src/routes/+server.ts") = .ok nestedSource.toUTF8 := by
    cbv
  have hsource : HasSource nestedProject "/src/routes/+server.ts" nestedSource := ⟨_, hbytes, hdecoded⟩
  obtain ⟨root, hmodule, ha, hfull, ⟨d, hd, htypes⟩, hget, hput, hdeep, hunknown⟩ :
      ∃ root ∈ (readModule (Dialect.ofFile "/src/routes/+server.ts") nestedSource).toOption,
        Ample {} 2 root ∧
        outcome (tableOf {} 2 "/src/routes/+server.ts" root) =
          .ok [(.get, nestedRoute .get "() => number"), (.put, nestedRoute .put "() => number[]")] ∧
        (∃ d ∈ handler? (exports root) "GET",
          handlerTypes? {} 1 root d = some ⟨"() => number", none⟩) ∧
        tooDeep {} 1 root "GET" = false ∧ tooDeep {} 1 root "PUT" = true ∧
        ({} : Settings).methods.countP (tooDeep {} 1 root) = 1 ∧
        ({} : Settings).methods.countP
          (fun word => tooDeep {} 1 root word || hasNoResponse {} root word) = 2 := by
    decide +kernel
  have hroot : outcome (readFile nestedProject "/src/routes/+server.ts") = .ok root := by
    rw [outcome_readFile hsource]
    cases hr : readModule (Dialect.ofFile "/src/routes/+server.ts") nestedSource with
    | error fault => rw [hr] at hmodule; cases hmodule
    | ok module => rw [hr] at hmodule; cases hmodule; rfl
  obtain ⟨-, hhigher, hmodules⟩ := too_deep_isolated nestedProject {} "/src/routes/+server.ts"
  rw [← outcome_analyze_module hroot] at hfull
  obtain ⟨table, htable, hcut, hcounts⟩ := (hmodules root hroot).2 2 ha _ hfull 1
  have hshown :
      table = [(.get, nestedRoute .get "() => number"), (.put, nestedRoute .put "any")] := by
    obtain _ | ⟨⟨hfirst, hwhole⟩, _ | ⟨⟨hsecond, hlost⟩, _ | _⟩⟩ := hcut
    refine congrArg₂ _ (Prod.ext hfirst ?_) (congrArg₂ _ (Prod.ext hsecond ?_) rfl)
    · exact hwhole.trans (if_neg (Bool.eq_false_iff.1 hget))
    · exact hlost.trans (if_pos hput)
  rw [hshown] at htable
  obtain ⟨hdeep', hunknown'⟩ := hcounts {}
  rw [hdeep] at hdeep'
  rw [hunknown] at hunknown'
  exact ⟨root, hroot, ha, ⟨d, hd, fun limit hl => hhigher root 1 limit d _ hl htypes⟩, hfull, htable,
    hdeep', hunknown'⟩

end Analysis

end RouteAtlas
