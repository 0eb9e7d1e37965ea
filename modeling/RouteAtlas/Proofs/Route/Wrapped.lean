/-
  RouteAtlas: routes of handlers in wrappers.

  A constant that starts with a function in wrappers has the route of the bare function, if there is one
  `as` among the wrappers at most.  With more of them it has none.

  * `HasSignature` is the signature of a route in the table of a module;
  * `handler?_insert`: a statement that declares no function adds no handler;
  * `inWrappers` are the statements of a module that exports a handler in wrappers, and `wrapped_match`
    says that they match those with the bare one;
  * `typeOf_wrapped` and `response_wrapped`: what the handler responds with has the same type;
  * `signatures_wrapped` and `signatures_lost` are the routes with one `as` at most and with more of them,
    `wrapped_handler` is all of it.
-/
import RouteAtlas.Proofs.Handler.Wrapped
import RouteAtlas.Proofs.Route.Forms
import RouteAtlas.Proofs.Route.Order

namespace RouteAtlas

theorem MethodTable.lookup_seen {β : Type} (view : Route → β) (table : MethodTable) (method : Method) :
    (table.seen view).lookup method = (table.lookup method).map view := by
  induction table with
  | nil => rfl
  | cons entry table ih =>
    obtain ⟨m, r⟩ := entry
    show List.lookup method ((m, view r) :: MethodTable.seen view table) = _
    rw [List.lookup_cons, List.lookup_cons, ih]
    cases method == m <;> rfl

namespace Analysis

open RouteAtlas.Code RouteAtlas.Handler RouteAtlas.Recording RouteAtlas.Typing
open Context (answer)

/-! ## Signatures of routes -/

section
variable {settings : Settings} {limit : Nat} {file : String} {root : Node} {method : Method}

/-- The table of a module has a route with a signature. -/
def HasSignature (settings : Settings) (limit : Nat) (file : String) (root : Node) (method : Method)
    (signature : Signature) : Prop :=
  ∃ table, signatures settings limit file root = .ok table ∧ table.lookup method = some signature

/-- A configured method has the signature that its handler has. -/
theorem hasSignature_iff {path : String}
    (hm : ∀ word ∈ settings.methods, (Method.ofWord? word).isSome)
    (hp : placeOf settings file = .ok path) (hmethod : method.word ∈ settings.methods)
    {signature : Signature} :
    HasSignature settings limit file root method signature ↔
      ∃ d ∈ handler? (exports root) method.word,
        (routeFrom settings limit root path method d).signature = signature := by
  have htable : signatures settings limit file root =
      .ok ((tableFrom settings limit root path).seen Route.signature) := by
    unfold signatures seenTable
    rw [outcome_tableOf limit root hm hp]
    rfl
  have hlookup : ((tableFrom settings limit root path).seen Route.signature).lookup method =
      (handler? (exports root) method.word).map fun d =>
        (routeFrom settings limit root path method d).signature := by
    rw [MethodTable.lookup_seen, lookup_tableFrom, if_pos hmethod, Option.map_map, handler?, exports_of]
    rfl
  constructor
  · rintro ⟨table, htable', hsignature⟩
    rw [htable] at htable'
    cases htable'
    rw [hlookup] at hsignature
    exact Option.map_eq_some_iff.1 hsignature
  · rintro ⟨d, hd, rfl⟩
    exact ⟨_, htable, by rw [hlookup, Option.mem_def.1 hd]; rfl⟩

/-- A module has the signatures of what it reads as. -/
theorem Reads.hasSignature {ss : List Node} (h : Reads settings.queryAccessors ss root)
    {signature : Signature} :
    HasSignature settings limit file (moduleOf ss) method signature ↔
      HasSignature settings limit file root method signature := by
  unfold HasSignature
  rw [h.signatures file]

/-- A handler that is within a limit is shown with its types. -/
theorem shownTypes_of_not_tooDeep {word : String} {d : FunctionDeclaration}
    (hd : handler? (exports root) word = some d) (h : tooDeep settings limit root word = false) :
    handlerTypes? settings limit root d = some (shownTypes settings limit root d) := by
  rw [tooDeep_of_handler hd] at h
  obtain ⟨types, htypes⟩ := Option.isSome_iff_exists.1 (by simpa using h)
  rw [shownTypes, htypes, Option.getD_some]

end

/-! ## Statements without functions -/

section
variable {before after : List Node} {s : Node}

/-- What is searched in statements is not found in one that has nothing of it. -/
theorem findSome?_insert {α : Type} {g : Node → Option α} (hs : g s = none) (hnamed : s.isNamed = true) :
    (moduleOf (before ++ s :: after)).named.findSome? g = (moduleOf (before ++ after)).named.findSome? g := by
  show ((before ++ s :: after).filter Node.isNamed).findSome? g =
    ((before ++ after).filter Node.isNamed).findSome? g
  rw [List.filter_append, List.filter_append, List.filter_cons_of_pos hnamed, List.findSome?_append,
    List.findSome?_append, List.findSome?_cons, hs]

/-- **A statement that declares no function adds no handler.** -/
theorem handler?_insert (hnamed : s.isNamed = true)
    (hlocal : ∀ n, implementation? (declarationsOf n (declaredLocally s)) = none)
    (hdirect : ∀ n, implementation? (declarationsOf n (exportedWithDeclaration s)) = none)
    (hclauses : localClauses s = []) (word : String) :
    handler? (exports (moduleOf (before ++ s :: after))) word =
      handler? (exports (moduleOf (before ++ after))) word := by
  have hnames : ∀ n, implementation? (localDeclarations (moduleOf (before ++ s :: after)) n) =
      implementation? (localDeclarations (moduleOf (before ++ after)) n) := by
    intro n
    unfold localDeclarations
    rw [declarationsOf_flatMap, declarationsOf_flatMap, implementation?_flatMap,
      implementation?_flatMap]
    exact findSome?_insert (hlocal n) hnamed
  have hexports : implementation? (directExports (moduleOf (before ++ s :: after)) word) =
      implementation? (directExports (moduleOf (before ++ after)) word) := by
    unfold directExports
    rw [declarationsOf_flatMap, declarationsOf_flatMap, implementation?_flatMap,
      implementation?_flatMap]
    exact findSome?_insert (hdirect word) hnamed
  have hsame : (moduleOf (before ++ s :: after)).named.flatMap localClauses =
      (moduleOf (before ++ after)).named.flatMap localClauses := by
    show ((before ++ s :: after).filter Node.isNamed).flatMap localClauses =
      ((before ++ after).filter Node.isNamed).flatMap localClauses
    rw [List.filter_append, List.filter_append, List.filter_cons_of_pos hnamed, List.flatMap_append,
      List.flatMap_append, List.flatMap_cons, hclauses, List.nil_append]
  unfold handler?
  rw [exports_of, exports_of, exportList, exportList, implementation?_append, implementation?_append,
    hexports, clauseExports, clauseExports, implementation?_flatMap, implementation?_flatMap, hsame]
  simp only [hnames]

end

/-! ## Modules with a handler -/

/-- No functions are twins. -/
abbrev NoTwins (_ _ : Node) : Prop :=
  False

/-- The statements of a module that exports a handler in wrappers. -/
def inWrappers {accessors : List String} (name : String) (ws : List (Wrapper accessors))
    (f : FunctionValue) (before after : List Node) : List Node :=
  before ++ Wrapped.statement name ws f :: after

section
variable {settings : Settings} {limit : Nat} {name : String}
  {ws : List (Wrapper settings.queryAccessors)} {f : FunctionValue} {before after : List Node}
  {root root' : Node}

/-- What the handler of a name responds with does not depend on what the name stands for. -/
def RespondsApart (settings : Settings) (root : Node) (name : String) : Prop :=
  ∀ d ∈ handler? (exports root) name, ∀ e ∈ responses settings.responseHelpers d,
    ¬ Meets (Scope.of root (some d.function)) name [] (.infer e)

theorem Reads.respondsApart {ss : List Node} (h : Reads settings.queryAccessors ss root)
    (hroot : RespondsApart settings root name) : RespondsApart settings (moduleOf ss) name := by
  intro d hd e he hmeets
  obtain ⟨hnone, -⟩ | ⟨d₀, d', hd₀, hd', hrel⟩ :=
    rel_cases (handler?_match h.match (fun _ _ hrel => hrel.hasBody) name)
  · rw [Option.mem_def.1 hd] at hnone
    cases hnone
  obtain rfl : d = d₀ := Option.some.inj ((Option.mem_def.1 hd).symm.trans hd₀)
  obtain ⟨e', he', hcounterpart⟩ := exists_right_of_forall₂ hrel.responses he
  have hscope := Scope.Resembles.of_entries hrel.names (moduleBindings_match h.match)
  exact hroot d' hd' e' he'
    (meets_counterpart hscope (areTwins_none _ _) hmeets (.infer hcounterpart))

/-- Names of modules with a handler, bare and in wrappers. -/
def NamesInWrappers (settings : Settings) (name : String) (ws : List (Wrapper settings.queryAccessors))
    (f : FunctionValue) (e e' : String × Binding) : Prop :=
  e.1 = e'.1 ∧ BoundAside (Counterpart settings.queryAccessors NoTwins) name
    (.value (Wrapped.value (bare settings.queryAccessors) f)) (.value (Wrapped.value ws f)) e.1 e.2 e'.2

theorem wrapped_match (hone : assertions ws ≤ 1) :
    List.Forall₂ (StatementsMatch (NamesInWrappers settings name ws f)
        (HandlesAlike settings.queryAccessors settings.responseHelpers NoTwins))
      (inWrappers name (bare settings.queryAccessors) f before after)
      (inWrappers name ws f before after) :=
  statements_match (fun _ _ he => ⟨he.1, .inl he.2⟩) (fun _ _ => id)
    (Wrapped.statementsMatch_wrapped name ws f hone ⟨rfl, .inr ⟨rfl, rfl, rfl⟩⟩
      (Wrapped.handlesAlike_wrapped name ws f)) before after

/-! ## Types -/

section
variable {s s' : Scope}
  (hs : ∀ other, Option.Rel (BoundAside (Counterpart settings.queryAccessors NoTwins) name
    (.value (Wrapped.value (bare settings.queryAccessors) f)) (.value (Wrapped.value ws f)) other)
      (s.find? other) (s'.find? other))
include hs

/-- **What has a type with the bare handler has it with the one in wrappers**, at a limit that is higher by
    what the wrappers take, if no wrapper is an `as` or the type does not depend on the name. -/
theorem typeOf_wrapped {e e' : Node} (he : Counterpart settings.queryAccessors NoTwins e e')
    (hapart : assertions ws = 0 ∨ ¬ Meets s name [] (.infer e)) {type : String}
    (h : s.typeOf limit e = some type) : s'.typeOf (limit + ws.length) e' = some type := by
  have hnone : ∀ t, AreTwins settings.queryAccessors NoTwins t := areTwins_none _
  show answer s' (limit + ws.length) [] (.infer e') = some type
  have h : answer s limit [] (.infer e) = some type := h
  obtain hscope | ⟨hothers, hfind, hfind'⟩ := resembles_or_bound hs
  · rw [answer_counterpart hscope (hnone s) limit [] (.infer he)] at h
    exact answer_mono s' _ limit [] _ type h
  rcases hapart with hplain | hapart
  · -- The name starts with the function itself, then with the wrappers around it.
    have hself : Scope.Resembles (Counterpart settings.queryAccessors NoTwins) s
        (assigned name f.node s) :=
      resembles_assigned (others_self hothers Counterpart.refl) hfind
        (ReadsAlike.withRole f.node .value).counterpart
    have hwrapped : Scope.Resembles (Counterpart settings.queryAccessors NoTwins)
        (assigned name (wrapped ws f) (assigned name f.node s)) s' := by
      refine assigned_resembles (fun other hother => ?_) hfind' (ReadsAlike.toRole _ .value).counterpart
      rw [find?_assigned, if_neg hother]
      exact hothers other hother
    rw [answer_counterpart hself (hnone s) limit [] (.infer (Counterpart.refl e))] at h
    have hmore := answer_unwrapped find?_assigned_self
      ((unwrap_of_no_assertion ws f hplain).trans (unwrap_function f).symm)
      (fun limit marks type h => (Wrapped.answer_wrapped ws f _ limit marks hplain).trans h) limit [] _ type h
    rw [answer_counterpart hwrapped (hnone _) _ [] (.infer he)] at hmore
    simpa using hmore
  · have hwrapped : Scope.Resembles (Counterpart settings.queryAccessors NoTwins)
        (assigned name (Wrapped.value ws f) s) s' :=
      assigned_resembles hothers hfind' (Counterpart.refl _)
    rw [answer_unmet hapart limit, answer_counterpart hwrapped (hnone _) limit [] (.infer he)] at h
    exact answer_mono s' _ limit [] _ type h

end

variable (h : Reads settings.queryAccessors (inWrappers name (bare settings.queryAccessors) f before after)
    root)
  (h' : Reads settings.queryAccessors (inWrappers name ws f before after) root')
  (hone : assertions ws ≤ 1)
include h h' hone

theorem handler?_wrapped (word : String) :
    Option.Rel (HandlesAlike settings.queryAccessors settings.responseHelpers NoTwins)
      (handler? (exports (moduleOf (inWrappers name (bare settings.queryAccessors) f before after))) word)
      (handler? (exports (moduleOf (inWrappers name ws f before after))) word) := by
  have hmatch := @wrapped_match settings name ws f before after hone
  rw [← operands_moduleOf h, ← operands_moduleOf h'] at hmatch
  exact handler?_match hmatch (fun _ _ hd => hd.hasBody) word

/-- **Handlers respond with the same types.** -/
theorem response_wrapped {d d' : FunctionDeclaration} {types types' : HandlerTypes}
    (hd : HandlesAlike settings.queryAccessors settings.responseHelpers NoTwins d d')
    (hapart : assertions ws = 0 ∨ ∀ e ∈ responses settings.responseHelpers d, ¬ Meets
      (Scope.of (moduleOf (inWrappers name (bare settings.queryAccessors) f before after))
        (some d.function)) name [] (.infer e))
    (ht : handlerTypes? settings limit
      (moduleOf (inWrappers name (bare settings.queryAccessors) f before after)) d = some types)
    (ht' : handlerTypes? settings limit (moduleOf (inWrappers name ws f before after)) d' = some types') :
    types.response = types'.response := by
  have hmatch := @wrapped_match settings name ws f before after hone
  rw [← operands_moduleOf h, ← operands_moduleOf h'] at hmatch
  have hscope := find?_rel
    (R := BoundAside (Counterpart settings.queryAccessors NoTwins) name
      (.value (Wrapped.value (bare settings.queryAccessors) f)) (.value (Wrapped.value ws f)))
    (List.Forall₂.imp (fun _ _ he => ⟨he.1, .inl he.2⟩) hd.names) (moduleBindings_match hmatch)
  have hresponse := responseType_of_handlerTypes? ht
  have hresponse' := responseType_mono ws.length (responseType_of_handlerTypes? ht')
  have hmore := responseType_mono₂ (((List.forall₂_and_left _ _).2 ⟨fun e he => he, hd.responses⟩).imp
    fun e e' he t htype => typeOf_wrapped hscope he.2
      (hapart.imp_right fun hapart => hapart e he.1) htype) hresponse
  exact Option.some.inj (hmore.symm.trans hresponse')

omit h h' in
/-- The name has a handler. -/
theorem exists_handler : ∃ d, handler? (exports (moduleOf (inWrappers name ws f before after))) name =
    some d := by
  have hnamed : Wrapped.statement name ws f ∈ (moduleOf (inWrappers name ws f before after)).named :=
    List.mem_filter.2 ⟨List.mem_append_right _ (List.mem_cons_self ..), rfl⟩
  have hentry : (name, Declaration.function (Wrapped.handler name ws f)) ∈
      exportedWithDeclaration (Wrapped.statement name ws f) := by
    rw [Wrapped.exportedWithDeclaration_wrapped, Wrapped.declaration, if_pos hone]
    exact List.mem_singleton_self _
  unfold handler?
  rw [exports_of]
  exact Option.isSome_iff_exists.1 ((implementation?_isSome_iff _).2
    ⟨_, List.mem_append_left _ (mem_declarationsOf.2 (List.mem_flatMap.2 ⟨_, hnamed, hentry⟩)), _, rfl,
      Wrapped.hasBody_handler name ws f⟩)

/-- **The name has a route in both modules**, which ask the query alike and respond with the same types. -/
theorem signatures_wrapped {file path : String} {method : Method}
    (hm : ∀ word ∈ settings.methods, (Method.ofWord? word).isSome)
    (hp : placeOf settings file = .ok path) (hname : method.word = name)
    (hmethod : name ∈ settings.methods) (limit : Nat) :
    ∃ signature signature', HasSignature settings limit file root method signature ∧
      HasSignature settings limit file root' method signature' ∧
      signature.queryParameters = signature'.queryParameters ∧
      (tooDeep settings limit root name = false → tooDeep settings limit root' name = false →
        assertions ws = 0 ∨ RespondsApart settings root name →
          signature.returnType = signature'.returnType) := by
  obtain ⟨d₀, hd₀⟩ := @exists_handler settings name ws f before after hone
  obtain ⟨-, hnone⟩ | ⟨d, d', hd, hd', hrel⟩ := rel_cases (handler?_wrapped h h' hone name)
  · cases hd₀.symm.trans hnone
  have hmethod' : method.word ∈ settings.methods := hname ▸ hmethod
  refine ⟨(routeFrom settings limit _ path method d).signature,
    (routeFrom settings limit _ path method d').signature,
    h.hasSignature.1 ((hasSignature_iff hm hp hmethod').2 ⟨d, hname ▸ hd, rfl⟩),
    h'.hasSignature.1 ((hasSignature_iff hm hp hmethod').2 ⟨d', hname ▸ hd', rfl⟩), hrel.queries,
    fun hdeep hdeep' hapart => ?_⟩
  have htypes := shownTypes_of_not_tooDeep hd ((h.tooDeep name).trans hdeep)
  have htypes' := shownTypes_of_not_tooDeep hd' ((h'.tooDeep name).trans hdeep')
  have hresponse := response_wrapped h h' hone hrel
    (hapart.imp_right fun hapart => h.respondsApart hapart d hd) htypes htypes'
  show (shownTypes _ _ _ d).response.getD _ = (shownTypes _ _ _ d').response.getD _
  rw [hresponse]

omit h hone in
/-- **With more than one `as` the statement adds no route.** -/
theorem signatures_lost {file path : String} {method : Method}
    (hm : ∀ word ∈ settings.methods, (Method.ofWord? word).isSome)
    (hp : placeOf settings file = .ok path) (hmethod : method.word ∈ settings.methods)
    (hmore : 1 < assertions ws) (limit : Nat) :
    (∃ signature, HasSignature settings limit file root' method signature) ↔
      ∃ signature, HasSignature settings limit file (moduleOf (before ++ after)) method signature := by
  have hnone : ∀ n, implementation? (declarationsOf n [(name, Wrapped.declaration name ws f)]) = none := by
    intro n
    rw [Wrapped.declaration, if_neg (Nat.not_le_of_gt hmore)]
    unfold declarationsOf
    by_cases hn : name = n <;> simp [hn, implementation?]
  have hinsert := @handler?_insert before after (Wrapped.statement name ws f) rfl
    (fun n => by rw [Wrapped.declaredLocally_wrapped, hnone])
    (fun n => by rw [Wrapped.exportedWithDeclaration_wrapped, hnone])
    (Wrapped.localClauses_wrapped name ws f) method.word
  simp only [← h'.hasSignature, hasSignature_iff hm hp hmethod]
  rw [show moduleOf (inWrappers name ws f before after) =
    moduleOf (before ++ Wrapped.statement name ws f :: after) from rfl, hinsert]
  simp

end

/-! ## All wrappers -/

/-- **Wrappers around a handler do not lose its route, with one `as` among them at most.**

    A constant that starts with a function in parentheses, with non-null marks and with types behind
    `satisfies` and `as`, in any order, is exported as this function.  In every scope and at every limit it
    responds with the same types as the bare one, and it asks the query for the same names.  So its file has
    a route where the file with the bare function has one, which asks the query alike.  Where both handlers
    stay within the limit the routes return the same type, if there is no `as` or if what the handler
    responds with does not depend on the constant itself, which has the type behind the `as`.

    With more than one `as` the constant is exported as something that is no function, and its file has a
    route only where the other statements of its module have one. -/
theorem wrapped_handler (settings : Settings) (name : String)
    (ws : List (Wrapper settings.queryAccessors)) (f : FunctionValue) (before after : List Node)
    {root root' : Node}
    (h : Reads settings.queryAccessors
      (inWrappers name (bare settings.queryAccessors) f before after) root)
    (h' : Reads settings.queryAccessors (inWrappers name ws f before after) root')
    {file path : String} {method : Method}
    (hm : ∀ word ∈ settings.methods, (Method.ofWord? word).isSome)
    (hp : placeOf settings file = .ok path) (hname : method.word = name)
    (hmethod : name ∈ settings.methods) :
    (assertions ws ≤ 1 →
      exportedWithDeclaration (Wrapped.statement name ws f) =
        [(name, .function (Wrapped.handler name ws f))] ∧
      (ws ≠ [] → (Wrapped.handler name ws f).function = f.node) ∧
      (∀ scope limit, responseType scope limit settings.responseHelpers (Wrapped.handler name ws f) =
        responseType scope limit settings.responseHelpers
          (Wrapped.handler name (bare settings.queryAccessors) f)) ∧
      queryParameters settings.queryAccessors (Wrapped.handler name ws f) =
        queryParameters settings.queryAccessors
          (Wrapped.handler name (bare settings.queryAccessors) f) ∧
      ∀ limit, ∃ signature signature', HasSignature settings limit file root method signature ∧
        HasSignature settings limit file root' method signature' ∧
        signature.queryParameters = signature'.queryParameters ∧
        (tooDeep settings limit root name = false → tooDeep settings limit root' name = false →
          assertions ws = 0 ∨ RespondsApart settings root name →
            signature.returnType = signature'.returnType)) ∧
    (1 < assertions ws →
      exportedWithDeclaration (Wrapped.statement name ws f) =
        [(name, .other name (Wrapped.declarator name ws f) .variable_)] ∧
      ∀ limit, (∃ signature, HasSignature settings limit file root' method signature) ↔
        ∃ signature, HasSignature settings limit file (moduleOf (before ++ after)) method signature) := by
  refine ⟨fun hone => ⟨?_, fun hws => ?_, fun scope limit => ?_, ?_, fun limit =>
    signatures_wrapped h h' hone hm hp hname hmethod limit⟩, fun hmore => ⟨?_, fun limit =>
      signatures_lost h' hm hp (hname ▸ hmethod) hmore limit⟩⟩
  · rw [Wrapped.exportedWithDeclaration_wrapped, Wrapped.declaration, if_pos hone]
  · obtain ⟨w, vs, rfl⟩ := List.exists_cons_of_ne_nil hws
    rfl
  · unfold responseType
    rw [Wrapped.responses_wrapped, Wrapped.responses_wrapped]
  · rw [Wrapped.queryParameters_wrapped, Wrapped.queryParameters_wrapped]
  · rw [Wrapped.exportedWithDeclaration_wrapped, Wrapped.declaration,
      if_neg (Nat.not_le_of_gt hmore)]

/-- A name of a type, which asks the query for nothing. -/
def typeName (accessors : List String) (name : String) : SilentType accessors where
  node := .planted .typeText none name [.planted .construct none name []]
  noReturn := by
    intro n hn
    fin_cases hn <;> exact nofun
  noQuery := by
    intro n hn hcall
    fin_cases hn <;> cases hcall

/-- A function that responds with a number. -/
def numberResponder : FunctionValue where
  node := .planted .arrowFunction none "" [
    .planted .parameters (some .parameters) "()" [],
    blockOf (.planted .call none "" [
      .planted .identifier (some .callee) "json" [],
      .planted .arguments (some .arguments) "" [numberOne]])]
  isValue := rfl
  hasBody := rfl

/-- A number meets no names. -/
theorem not_meets_number {s : Scope} {name : String} {resolving : List String} {e : Node}
    (he : e.kind = .number) : ¬ Meets s name resolving (.infer e) := by
  rw [meets_iff]
  rintro (hname | ⟨marks, inner, hasked, -⟩)
  · cases hname
  · have hrule : Call.rule resolving s (.infer e) =
        .plain (if Text.endsWith "n" e.text then "bigint" else "number") := by
      show expressionRule resolving e = _
      unfold expressionRule
      rw [he]
    rw [hrule] at hasked
    cases hasked

theorem wrapped_handler_asserted :
    ∃ root ∈ (readModule .plain "export let GET=()=>\x7breturn json(1)\x7d").toOption,
      ∃ asserted ∈ (readModule .plain "export let GET=(()=>\x7breturn json(1)\x7d)as T").toOption,
        ∃ twice ∈ (readModule .plain "export let GET=(()=>\x7breturn json(1)\x7d)as U as T").toOption,
          HasSignature {} depthLimit "/src/routes/+server.ts" root .get ⟨"() => Response", "number", []⟩ ∧
          (∃ signature, HasSignature {} depthLimit "/src/routes/+server.ts" asserted .get signature ∧
            signature.returnType = "number" ∧ signature.queryParameters = []) ∧
          ¬ ∃ signature, HasSignature {} depthLimit "/src/routes/+server.ts" twice .get signature := by
  let f := numberResponder
  let T : Wrapper ({} : Settings).queryAccessors := .asserted (typeName _ "T")
  let U : Wrapper ({} : Settings).queryAccessors := .asserted (typeName _ "U")
  have hm : ∀ word ∈ ({} : Settings).methods, (Method.ofWord? word).isSome := by decide
  have hp : placeOf {} "/src/routes/+server.ts" = .ok "/" := by decide +kernel
  obtain ⟨root, hroot, asserted, hasserted, twice, htwice, hreads, hreads', hreads'', hnumber, hdeep, hdeep',
      htable⟩ :
      ∃ root ∈ (readModule .plain "export let GET=()=>\x7breturn json(1)\x7d").toOption,
        ∃ asserted ∈ (readModule .plain "export let GET=(()=>\x7breturn json(1)\x7d)as T").toOption,
          ∃ twice ∈ (readModule .plain "export let GET=(()=>\x7breturn json(1)\x7d)as U as T").toOption,
            reads? ({} : Settings).queryAccessors
              (inWrappers "GET" (bare ({} : Settings).queryAccessors) f [] []) root = true ∧
            reads? ({} : Settings).queryAccessors
              (inWrappers "GET" [T, .parentheses] f [] []) asserted = true ∧
            reads? ({} : Settings).queryAccessors
              (inWrappers "GET" [T, U, .parentheses] f [] []) twice = true ∧
            ((handler? (exports root) "GET").all fun d =>
              (responses ({} : Settings).responseHelpers d).all fun e => e.kind == .number) = true ∧
            tooDeep {} depthLimit root "GET" = false ∧ tooDeep {} depthLimit asserted "GET" = false ∧
            signatures {} depthLimit "/src/routes/+server.ts" root =
              .ok [(.get, ⟨"() => Response", "number", []⟩)] := by
    decide +kernel
  have hreads := reads_of_check hreads
  have hapart : RespondsApart {} root "GET" := by
    intro d hd e he
    rw [Option.mem_def.1 hd] at hnumber
    exact not_meets_number (beq_iff_eq.1 (List.all_eq_true.1 hnumber e he))
  have hwrapped := (wrapped_handler {} "GET" [T, .parentheses] f [] [] hreads (reads_of_check hreads')
    hm hp (rfl : Method.get.word = "GET") (by decide)).1 (by decide)
  have hlost := (wrapped_handler {} "GET" [T, U, .parentheses] f [] [] hreads (reads_of_check hreads'')
    hm hp (rfl : Method.get.word = "GET") (by decide)).2 (by decide)
  obtain ⟨signature, signature', ⟨table, htable', hlookup⟩, hsignature', hqueries, htypes⟩ :=
    hwrapped.2.2.2.2 depthLimit
  have hsignature : signature = ⟨"() => Response", "number", []⟩ := by
    rw [htable] at htable'
    cases htable'
    exact (Option.some.inj hlookup).symm
  subst hsignature
  refine ⟨root, hroot, asserted, hasserted, twice, htwice, ⟨_, htable, rfl⟩,
    ⟨signature', hsignature', (htypes hdeep hdeep' (Or.inr hapart)).symm, hqueries.symm⟩, ?_⟩
  rw [hlost.2 depthLimit]
  rintro ⟨signature, table, htable, hlookup⟩
  have hempty : signatures {} depthLimit "/src/routes/+server.ts" (moduleOf []) = .ok [] := by
    decide +kernel
  cases (hempty.symm.trans htable)
  cases hlookup

end Analysis

end RouteAtlas
