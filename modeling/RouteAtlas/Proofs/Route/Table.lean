/-
  RouteAtlas: the routes in the table of a module.

  A module whose file has a place has a route for each configured method that it exports as a function
  with a body, and no others.

  * `lookup_tableFrom` looks a method up in such a table;
  * `routes_atPath`: all routes of a file are at its place;
  * `HandledBy root method d` says that `d` is the first function with a body among the declarations
    that the method is exported with;
  * `table_routes` is the table against the statements of the module.
-/
import Mathlib
import RouteAtlas.Proofs.Handler.Exports
import RouteAtlas.Proofs.Route.Analysis

namespace RouteAtlas

/-! ## Tables -/

theorem Method.ofWord?_eq_some_iff {word : String} {method : Method} :
    Method.ofWord? word = some method ↔ method.word = word := by
  constructor
  · intro h; simpa using List.find?_some h
  · rintro rfl; exact Method.ofWord?_word method

theorem MethodTable.lookup_set (table : MethodTable) (method other : Method) (route : Route) :
    (table.set method route).lookup other =
      if other = method then some route else table.lookup other := by
  induction table with
  | nil =>
    rw [MethodTable.set, List.lookup_cons]
    cases h : other == method <;> simp_all
  | cons entry table ih =>
    obtain ⟨m, r⟩ := entry
    unfold MethodTable.set
    by_cases hm : m = method
    · subst hm
      simp only [beq_self_eq_true, if_true, List.lookup_cons]
      cases h : other == m <;> simp_all
    · simp only [beq_iff_eq, hm, if_false, List.lookup_cons, ih]
      cases h : other == m <;> simp_all

theorem MethodTable.mem_set {table : MethodTable} {method : Method} {route : Route}
    {entry : Method × Route} (h : entry ∈ table.set method route) :
    entry = (method, route) ∨ entry ∈ table := by
  induction table with
  | nil => exact Or.inl (List.mem_singleton.1 h)
  | cons e table ih =>
    obtain ⟨m, r⟩ := e
    unfold MethodTable.set at h
    split at h
    · rename_i hm
      rw [beq_iff_eq.1 hm] at h
      exact (List.mem_cons.1 h).imp_right (List.mem_cons_of_mem _)
    · rcases List.mem_cons.1 h with rfl | h
      · exact Or.inr (List.mem_cons_self ..)
      · exact (ih h).imp_right (List.mem_cons_of_mem _)

namespace Analysis

open RouteAtlas.Code RouteAtlas.Handler RouteAtlas.Recording

variable (settings : Settings) (limit : Nat) (root : Node) (path : String)

/-- A configured method that has a handler is put into the table; any other one leaves the routes
    of a method as they are. -/
theorem lookup_withMethod (exported : Declarations) (table : MethodTable) (word : String)
    (method : Method) :
    (withMethod settings limit root path exported table word).lookup method =
      if method.word = word then
        ((handler? exported word).map (routeFrom settings limit root path method)).or
          (table.lookup method)
      else table.lookup method := by
  unfold withMethod
  cases hh : handler? exported word with
  | none => simp
  | some d =>
    cases hw : Method.ofWord? word with
    | none =>
      have hne : method.word ≠ word := fun h => by
        rw [Method.ofWord?_eq_some_iff.2 h] at hw; cases hw
      simp [hne]
    | some m =>
      have hm : m.word = word := Method.ofWord?_eq_some_iff.1 hw
      simp only [MethodTable.lookup_set]
      by_cases he : method = m
      · simp [he, hm]
      · have hne : method.word ≠ word := fun h => by
          rw [Method.ofWord?_eq_some_iff.2 h] at hw; exact he (Option.some.inj hw)
        simp [he, hne]

theorem lookup_withMethods (exported : Declarations) (method : Method) :
    ∀ (words : List String) (table : MethodTable),
      (words.foldl (withMethod settings limit root path exported) table).lookup method =
        if method.word ∈ words then
          ((handler? exported method.word).map (routeFrom settings limit root path method)).or
            (table.lookup method)
        else table.lookup method
  | [], table => by simp
  | word :: words, table => by
    rw [List.foldl_cons, lookup_withMethods exported method words, lookup_withMethod]
    by_cases hw : method.word = word
    · subst hw
      cases handler? exported method.word <;> simp
    · simp [hw]

/-- **The route of a configured method is that of its handler**, if it has one. -/
theorem lookup_tableFrom (method : Method) :
    (tableFrom settings limit root path).lookup method =
      if method.word ∈ settings.methods then
        (implementation? (exportList root method.word)).map
          (routeFrom settings limit root path method)
      else none := by
  unfold tableFrom
  rw [lookup_withMethods]
  simp [handler?, exports_of]

theorem mem_withMethods {exported : Declarations} {entry : Method × Route} :
    ∀ (words : List String) (table : MethodTable),
      entry ∈ words.foldl (withMethod settings limit root path exported) table →
      entry.1.word ∈ words ∨ entry ∈ table
  | [], _, h => Or.inr h
  | word :: words, table, h => by
    rcases mem_withMethods words _ h with hw | ht
    · exact Or.inl (List.mem_cons_of_mem _ hw)
    · unfold withMethod at ht
      split at ht
      · rename_i d m hd hm
        rcases MethodTable.mem_set ht with rfl | ht
        · exact Or.inl (by simp [Method.ofWord?_eq_some_iff.1 hm])
        · exact Or.inr ht
      · exact Or.inr ht

/-! ## Routes at a place -/

/-- A table in progress has routes at a path, which the place of the file is or was not asked for. -/
structure AtPath (progress : Progress) : Prop where
  known : progress.path = none ∨ progress.path = some path
  routes : ∀ entry ∈ progress.table, entry.2.path = path ∧ entry.2.urls = Template.templates path

section
variable {settings limit root path} {file : String}

theorem AtPath.addMethod (hpath : placeOf settings file = .ok path) {exported : Declarations}
    {progress progress' : Progress} {word : String} (h : AtPath path progress)
    (hok : outcome (addMethod settings limit file root exported progress word) = .ok progress') :
    AtPath path progress' := by
  obtain ⟨-, rfl⟩ | ⟨d, method, place, -, -, hplace, rfl⟩ := addMethod_cases hok
  · exact h
  · have hknown : outcome (pathOf settings file progress.path) = .ok path := by
      rcases h.known with hp | hp <;> rw [hp]
      · exact hpath
      · rfl
    obtain rfl : path = place := Except.ok.inj (hknown.symm.trans hplace)
    refine ⟨Or.inr rfl, fun entry hentry => ?_⟩
    rcases MethodTable.mem_set hentry with rfl | hentry
    · exact ⟨rfl, rfl⟩
    · exact h.routes entry hentry

/-- **Every route of a file is at the place of the file**, and its addresses are the templates of this
    place, whatever methods are configured. -/
theorem routes_atPath {t : FileTree} {table : MethodTable} (hpath : placeOf settings file = .ok path)
    (hok : outcome (analyze t settings file limit) = .ok table) :
    ∀ entry ∈ table, entry.2.path = path ∧ entry.2.urls = Template.templates path := by
  rw [outcome_analyze] at hok
  cases hread : outcome (readFile t file) with
  | error e => rw [hread] at hok; cases hok
  | ok root =>
    rw [hread] at hok
    obtain ⟨progress, rfl, hall⟩ := exists_progress hok
    have hnone : AtPath path {} := ⟨Or.inl rfl, by simp⟩
    exact (foldlM_preserves (steady_addMethod settings limit file root _) (AtPath.addMethod hpath) hnone
      hall).routes

end

/-! ## Routes and exported functions -/

/-- A function handles a method: it is the first one with a body among the declarations that the
    module exports the method with. -/
def HandledBy (method : Method) (d : FunctionDeclaration) : Prop :=
  ∃ before after, exportList root method.word = before ++ .function d :: after ∧
    d.hasBody = true ∧ ∀ x ∈ before, ¬ x.Implements

theorem exportsFunction_iff_implementation (name : String) :
    ExportsFunction root name ↔ ∃ d, implementation? (exportList root name) = some d := by
  rw [← exportsFunction_iff, ← implementation?_isSome_iff, Option.isSome_iff_exists]

variable {settings}

/-- **No route is lost and none is invented.**  Where the place of a file is known, its module has a
    table, and the table has a route of a configured method exactly if the module exports the method
    as a function with a body.  The route is of that method, and it is made from the first such
    function that the method is exported with.  The analysis of a file with this module gives this
    table. -/
theorem table_routes {file : String}
    (hm : ∀ word ∈ settings.methods, (Method.ofWord? word).isSome)
    (hp : placeOf settings file = .ok path) :
    ∃ table, (∀ j, result (tableOf settings limit file root) j = .ok table) ∧
      (∀ method, method.word ∈ settings.methods →
        ((∃ route, table.lookup method = some route) ↔ ExportsFunction root method.word)) ∧
      (∀ method route, table.lookup method = some route → route.method = method ∧
        ∃ d, HandledBy root method d ∧ route = routeFrom settings limit root path method d) ∧
      (∀ entry ∈ table, entry.1.word ∈ settings.methods) ∧
      ∀ (t : FileTree) (j : Journal), outcome (readFile t file) = .ok root →
        result (analyze t settings file limit) j = .ok table := by
  have htable : outcome (tableOf settings limit file root) = _ := outcome_tableOf limit root hm hp
  refine ⟨tableFrom settings limit root path, fun j => ?_, fun method hmem => ?_,
    fun method route hr => ?_, fun entry he => ?_, fun t j hread => ?_⟩
  · rw [(steady_tableOf settings limit file root).result_eq j, htable]
  · rw [lookup_tableFrom, if_pos hmem, exportsFunction_iff_implementation]
    cases implementation? (exportList root method.word) <;> simp
  · rw [lookup_tableFrom] at hr
    split at hr
    · obtain ⟨d, hd, rfl⟩ := Option.map_eq_some_iff.1 hr
      exact ⟨rfl, d, (implementation?_eq_some_iff _ d).1 hd, rfl⟩
    · cases hr
  · exact (mem_withMethods settings limit root path _ _ he).resolve_right List.not_mem_nil
  · rw [(steady_analyze settings limit file).result_eq j, outcome_analyze, hread]
    exact htable

/-- A module that exports `GET` with an overload before its function, and `POST` by a clause that
    stands before the variable that it names. -/
def overloadedModule : Node :=
  .planted .program none "" [
    .planted .exportStatement none "" [
      .planted .functionSignature (some .declaration) "" [
        .planted .identifier (some .name) "GET" []]],
    .planted .exportStatement none "" [
      .planted .functionDeclaration (some .declaration) "" [
        .planted .identifier (some .name) "GET" [], .planted .block (some .body) "\x7b\x7d" []]],
    .planted .exportStatement none "" [
      .planted .exportClause none "" [
        .planted .exportSpecifier none "" [
          .planted .identifier (some .name) "create" [],
          .planted .identifier (some .newName) "POST" []]]],
    .planted .variableDeclaration none "" [
      .planted .declarator none "" [
        .planted .identifier (some .name) "create" [],
        .planted .parenthesized (some .value) "" [
          .planted .arrowFunction none "" [.planted .number (some .body) "1" []]]]]]

/-- The overloaded module has a route of either of its functions. -/
theorem table_routes_overloaded :
    (∀ word ∈ ({} : Settings).methods, (Method.ofWord? word).isSome) ∧
    placeOf {} "/src/routes/a/+server.ts" = .ok "/a" ∧
    ∃ table, (∀ j, result (tableOf {} 0 "/src/routes/a/+server.ts" overloadedModule) j =
        .ok table) ∧
      (∃ route, table.lookup .get = some route ∧ route.method = .get) ∧
      ∃ route, table.lookup .post = some route ∧ route.method = .post := by
  have hm : ∀ word ∈ ({} : Settings).methods, (Method.ofWord? word).isSome := by decide
  have hp : placeOf {} "/src/routes/a/+server.ts" = .ok "/a" := by cbv
  obtain ⟨table, htable, hiff, hroute, -⟩ := table_routes 0 overloadedModule _ hm hp
  have hget : ExportsFunction overloadedModule "GET" := by
    rw [exportsFunction_iff_implementation, ← Option.isSome_iff_exists]; cbv
  have hpost : ExportsFunction overloadedModule "POST" := by
    rw [exportsFunction_iff_implementation, ← Option.isSome_iff_exists]; cbv
  obtain ⟨get, hgetRoute⟩ := (hiff .get (by decide)).2 hget
  obtain ⟨post, hpostRoute⟩ := (hiff .post (by decide)).2 hpost
  exact ⟨hm, hp, table, htable, ⟨get, hgetRoute, (hroute _ _ hgetRoute).1⟩,
    post, hpostRoute, (hroute _ _ hpostRoute).1⟩

end Analysis

end RouteAtlas
