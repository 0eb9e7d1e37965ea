/-
  RouteAtlas: what the analysis of a file counts.

  Where something about a handler is not known the analysis of its file guesses, and counts a fallback
  for it.  In the end it counts the file with its routes.

  * `guesses` are the reasons why types of a handler are guessed at a limit, `guessesFor` those for the
    handler of a configured method;
  * `reasonsFor` are all reasons for fallbacks that a configured method gives, and `reasonsOver` those of
    several methods; the place of a file is a reason for the first handler only;
  * `counting_addMethod` is what one method counts, and `counting_addMethods` what several do;
  * `counting_analyze`: the analysis of a file that does not fail counts a fallback for each reason, in
    their order, and then the file.
-/
import RouteAtlas.Proofs.Metrics.Samples
import RouteAtlas.Proofs.Route.Analysis

namespace RouteAtlas

/-- The fallbacks on a file for some reasons. -/
def fallbacksOn (file : String) (reasons : List String) : List Event :=
  reasons.map fun reason => .fallback reason file sampleLimit

theorem fallbacksOn_append (file : String) (reasons more : List String) :
    fallbacksOn file (reasons ++ more) = fallbacksOn file reasons ++ fallbacksOn file more :=
  List.map_append

/-- A file is counted for a reason as often as the reason is given. -/
theorem length_filesFor_fallbacksOn (reason file : String) :
    ∀ reasons : List String, (filesFor reason (fallbacksOn file reasons)).length = reasons.count reason
  | [] => rfl
  | given :: reasons => by
    show (filesFor reason (.fallback given file sampleLimit :: fallbacksOn file reasons)).length = _
    rw [filesFor_cons, List.length_append, length_filesFor_fallbacksOn reason file reasons,
      List.count_cons]
    by_cases h : given = reason <;> simp [Event.fileFor?, h, Nat.add_comm]

namespace Analysis

open RouteAtlas.Code RouteAtlas.Handler RouteAtlas.Recording

/-! ## Reasons -/

/-- The reasons why types of a handler are guessed at a limit. -/
def guesses (settings : Settings) (limit : Nat) (root : Node) (d : FunctionDeclaration) : List String :=
  (if (handlerTypes? settings limit root d).isNone then ["type_too_deep"] else []) ++
    if (shownTypes settings limit root d).response.isNone then ["return_type_unknown"] else []

/-- The reasons why types of the handler of a configured method are guessed, if it has one. -/
def guessesFor (settings : Settings) (limit : Nat) (root : Node) (word : String) : List String :=
  ((handler? (exports root) word).map (guesses settings limit root)).getD []

/-- The module exports a configured method with a function. -/
def isHandled (root : Node) (word : String) : Bool :=
  (handler? (exports root) word).isSome

/-- The module exports a configured method, and not with a function. -/
def isOtherExport (root : Node) (word : String) : Bool :=
  !((exports root).of word).isEmpty && !isHandled root word

/-- The routes root is not in the path of a file. -/
def isOutside (settings : Settings) (file : String) : Bool :=
  (Location.belowRoot? (Location.plainMarker settings.routesRootMarker)
    (Location.normalChars file.toList)).isNone

/-- The reasons for fallbacks that a configured method gives; `placed` says whether the place of the file
    was asked for before. -/
def reasonsFor (settings : Settings) (limit : Nat) (file : String) (root : Node) (placed : Bool)
    (word : String) : List String :=
  (if isOtherExport root word then ["non_function_export"] else []) ++
    ((if isHandled root word && !placed && isOutside settings file then ["routes_root_missing"] else []) ++
      guessesFor settings limit root word)

/-- The reasons for fallbacks that some methods give in turn. -/
def reasonsOver (settings : Settings) (limit : Nat) (file : String) (root : Node) (placed : Bool) :
    List String → List String
  | [] => []
  | word :: words =>
    reasonsFor settings limit file root placed word ++
      reasonsOver settings limit file root (placed || isHandled root word) words

variable {settings : Settings} {limit : Nat} {file : String} {root : Node} {reason : String}

theorem guessesFor_of_handler {word : String} {d : FunctionDeclaration}
    (h : handler? (exports root) word = some d) :
    guessesFor settings limit root word = guesses settings limit root d := by
  simp [guessesFor, h]

/-! ## Handlers -/

theorem counting_handlerTypes (word : String) (d : FunctionDeclaration) :
    Counting (handlerTypes settings limit file word root d)
      (fallbacksOn file
        (if (handlerTypes? settings limit root d).isNone then ["type_too_deep"] else [])) := by
  unfold handlerTypes
  cases handlerTypes? settings limit root d <;> exact fun _ => rfl

theorem counting_knownResponse (response : Option String) :
    Counting (knownResponse settings file response)
      (fallbacksOn file (if response.isNone then ["return_type_unknown"] else [])) := by
  cases response <;> exact fun _ => rfl

/-- The route of a handler counts a fallback for each guess. -/
theorem counting_routeOf {word : String} {method : Method} (hm : Method.ofWord? word = some method)
    (path : String) (d : FunctionDeclaration) :
    Counting (routeOf settings limit file word path root d)
      (fallbacksOn file (guesses settings limit root d)) := by
  unfold routeOf guesses
  simp only [hm]
  rw [fallbacksOn_append]
  refine (counting_handlerTypes word d).bind
    (traced_handlerTypes settings limit file root word d).steady
    (outcome_handlerTypes settings limit file root word d) ?_
  exact (counting_knownResponse _).map _

/-- The place of a file counts a fallback if it is asked for and outside the routes root. -/
theorem counting_pathOf {known : Option String} {path : String}
    (hok : outcome (pathOf settings file known) = .ok path) :
    Counting (pathOf settings file known)
      (fallbacksOn file (if !known.isSome && isOutside settings file then ["routes_root_missing"] else [])) := by
  cases known with
  | some path => exact counting_pure path
  | none =>
    unfold pathOf Location.route isOutside at *
    simp only at hok ⊢
    cases hb : Location.belowRoot? (Location.plainMarker settings.routesRootMarker)
        (Location.normalChars file.toList) with
    | some rest => exact counting_pure _
    | none =>
      cases hs : settings.strictRoutesRoot with
      | false => exact fun _ => rfl
      | true =>
        rw [hb, hs] at hok
        cases hok

/-! ## Methods -/

/-- **A configured method counts a fallback for each of its reasons**, unless the analysis fails; then the
    place of the file is known if it was before, or if the method has a handler. -/
theorem counting_addMethod {p q : Progress} {word : String}
    (hok : outcome (addMethod settings limit file root (exports root) p word) = .ok q) :
    Counting (addMethod settings limit file root (exports root) p word)
        (fallbacksOn file (reasonsFor settings limit file root p.path.isSome word)) ∧
      q.path.isSome = (p.path.isSome || isHandled root word) := by
  obtain ⟨hh, rfl⟩ | ⟨d, method, path, hh, hm, hpath, rfl⟩ := addMethod_cases hok
  · refine ⟨?_, by simp [isHandled, hh]⟩
    unfold handler? at hh
    unfold addMethod
    cases hd : (exports root).of word with
    | nil =>
      have hnone : reasonsFor settings limit file root q.path.isSome word = [] := by
        simp [reasonsFor, isOtherExport, isHandled, guessesFor, handler?, hd, implementation?]
      rw [hnone]
      exact counting_pure q
    | cons x xs =>
      rw [hd] at hh
      have hother : reasonsFor settings limit file root q.path.isSome word = ["non_function_export"] := by
        simp [reasonsFor, isOtherExport, isHandled, guessesFor, handler?, hd, hh]
      rw [hother]
      simp only [hh]
      exact fun _ => rfl
  · refine ⟨?_, by simp [isHandled, hh]⟩
    have hreasons : reasonsFor settings limit file root p.path.isSome word =
        (if !p.path.isSome && isOutside settings file then ["routes_root_missing"] else []) ++
          guesses settings limit root d := by
      simp [reasonsFor, isOtherExport, isHandled, hh, guessesFor_of_handler hh]
    rw [hreasons, fallbacksOn_append, addMethod_handled settings limit file root hh]
    exact (counting_pathOf hpath).bind (traced_pathOf settings file p.path).steady hpath
      ((counting_routeOf hm path d).map _)

/-- **Several methods count a fallback for each of their reasons.** -/
theorem counting_addMethods : ∀ (words : List String) {p q : Progress},
    outcome (words.foldlM (addMethod settings limit file root (exports root)) p) = .ok q →
      Counting (words.foldlM (addMethod settings limit file root (exports root)) p)
        (fallbacksOn file (reasonsOver settings limit file root p.path.isSome words))
  | [], p, _, _ => counting_pure p
  | word :: words, p, q, hok => by
    obtain ⟨next, hstep, hrest⟩ :=
      exists_of_outcome_foldlM (steady_addMethod settings limit file root _) hok
    obtain ⟨hcounting, hknown⟩ := counting_addMethod hstep
    rw [List.foldlM_cons, reasonsOver, fallbacksOn_append, ← hknown]
    exact hcounting.bind (steady_addMethod settings limit file root _ p word) hstep
      (counting_addMethods words hrest)

/-! ## Files -/

variable {t : FileTree}

theorem counting_readFile : Counting (readFile t file) [] := by
  unfold readFile
  split
  · exact fun _ => rfl
  · split
    · exact fun _ => rfl
    · split <;> exact fun _ => rfl

theorem outcome_analyze_module (hroot : outcome (readFile t file) = .ok root) (limit : Nat) :
    outcome (analyze t settings file limit) = outcome (tableOf settings limit file root) := by
  rw [outcome_analyze, hroot]
  rfl

/-- **The analysis of a file counts a fallback for each reason, and then the file with its routes**,
    unless it fails. -/
theorem counting_analyze (hroot : outcome (readFile t file) = .ok root) {table : MethodTable}
    (hok : outcome (analyze t settings file limit) = .ok table) :
    Counting (analyze t settings file limit)
      (fallbacksOn file (reasonsOver settings limit file root false settings.methods) ++
        [.file 0 table.length]) := by
  rw [outcome_analyze_module hroot] at hok
  have htable : Counting (tableOf settings limit file root)
      (fallbacksOn file (reasonsOver settings limit file root false settings.methods)) := by
    obtain ⟨p, -, hp⟩ := exists_progress hok
    exact (counting_addMethods settings.methods hp).map _
  unfold analyze
  rw [← List.nil_append (fallbacksOn file _ ++ _)]
  refine counting_readFile.bind (traced_readFile file).steady hroot ?_
  exact htable.bind (steady_tableOf settings limit file root) hok fun _ => rfl

/-! ## How often a reason is given -/

/-- Methods give a reason for a guess at types as often as their handlers give it. -/
theorem count_guess (hplace : reason ≠ "routes_root_missing") (hexport : reason ≠ "non_function_export") :
    ∀ (words : List String) (placed : Bool),
      (reasonsOver settings limit file root placed words).count reason =
        (words.flatMap (guessesFor settings limit root)).count reason
  | [], _ => rfl
  | word :: words, placed => by
    have hword : (reasonsFor settings limit file root placed word).count reason =
        (guessesFor settings limit root word).count reason := by
      unfold reasonsFor
      rw [List.count_append, List.count_append]
      split <;> split <;> simp [Ne.symm hplace, Ne.symm hexport]
    rw [reasonsOver, List.count_append, hword, count_guess hplace hexport words, List.flatMap_cons,
      List.count_append]

/-- The analysis of a file counts a fallback for each guess at types, unless it fails. -/
theorem fallsBack_analyze (hplace : reason ≠ "routes_root_missing")
    (hexport : reason ≠ "non_function_export") (hroot : outcome (readFile t file) = .ok root)
    {table : MethodTable} (hok : outcome (analyze t settings file limit) = .ok table) (j : Journal) :
    (journal (analyze t settings file limit) j).metrics.counts.fallbacks reason =
      j.metrics.counts.fallbacks reason +
        (settings.methods.flatMap (guessesFor settings limit root)).count reason := by
  rw [counting_analyze hroot hok j, Metrics.counts_foldl, Counts.fallbacks_foldl, filesFor,
    List.filterMap_append, List.length_append]
  exact congrArg _ ((length_filesFor_fallbacksOn reason file _).trans
    (count_guess hplace hexport settings.methods false))

end Analysis

end RouteAtlas
