/-
  RouteAtlas: the methods in a table.

  The analysis of a module may fail; where it does not, these hold whatever methods are configured.

  * `words_tableOf`: the table has the configured methods that are handled, in their order, if no method is
    configured twice;
  * `handler_of_mem`: the routes in the table are those of the handlers;
  * `count_otherExport` and `count_outside`: how often the reasons for fallbacks are given that are no
    guesses at types.
-/
import RouteAtlas.Proofs.Route.Guesses
import RouteAtlas.Proofs.Route.Table

namespace RouteAtlas

/-- A method that a table does not have comes last. -/
theorem MethodTable.set_new {method : Method} (route : Route) :
    ∀ {table : MethodTable}, (∀ e ∈ table, e.1 ≠ method) →
      table.set method route = table ++ [(method, route)]
  | [], _ => rfl
  | (m, r) :: table, h => by
    obtain ⟨hm, hrest⟩ := List.forall_mem_cons.1 h
    unfold MethodTable.set
    rw [if_neg (by simpa using hm), set_new route hrest]
    rfl

/-- The words for the methods of a table. -/
def MethodTable.words (table : MethodTable) : List String :=
  table.map fun e => e.1.word

namespace Analysis

open RouteAtlas.Code RouteAtlas.Handler RouteAtlas.Recording

variable {settings : Settings} {limit : Nat} {file : String} {root : Node}

/-! ## The words for the methods -/

/-- A configured method that does not fail comes last if it is handled, and is left out otherwise. -/
theorem words_addMethod {p q : Progress} {word : String} (hnew : word ∉ p.table.words)
    (hok : outcome (addMethod settings limit file root (exports root) p word) = .ok q) :
    q.table.words = p.table.words ++ [word].filter (isHandled root) := by
  obtain ⟨hh, rfl⟩ | ⟨d, method, path, hh, hm, -, rfl⟩ := addMethod_cases hok
  · simp [isHandled, hh]
  · obtain rfl := Method.ofWord?_eq_some_iff.1 hm
    have hnew' : ∀ e ∈ p.table, e.1 ≠ method := fun e he heq =>
      hnew (List.mem_map.2 ⟨e, he, congrArg Method.word heq⟩)
    simp [MethodTable.words, MethodTable.set_new _ hnew', isHandled, hh]

theorem words_addMethods : ∀ {words : List String} {p q : Progress}, words.Nodup →
    (∀ word ∈ words, word ∉ p.table.words) →
    outcome (words.foldlM (addMethod settings limit file root (exports root)) p) = .ok q →
      q.table.words = p.table.words ++ words.filter (isHandled root)
  | [], p, q, _, _, hok => by
    cases hok
    simp
  | word :: words, p, q, hd, hnew, hok => by
    obtain ⟨hword, hd⟩ := List.nodup_cons.1 hd
    obtain ⟨hfirst, hnew⟩ := List.forall_mem_cons.1 hnew
    obtain ⟨next, hstep, hrest⟩ :=
      exists_of_outcome_foldlM (steady_addMethod settings limit file root _) hok
    have hnext := words_addMethod hfirst hstep
    have hnew' : ∀ other ∈ words, other ∉ next.table.words := by
      intro other ho hmem
      rw [hnext] at hmem
      obtain hold | hthis := List.mem_append.1 hmem
      · exact hnew other ho hold
      · obtain rfl := List.mem_singleton.1 (List.mem_filter.1 hthis).1
        exact hword ho
    rw [words_addMethods hd hnew' hrest, hnext, List.append_assoc, ← List.filter_append,
      List.singleton_append]

/-- **The table of a module has the configured methods that are handled**, in their order, if no method is
    configured twice. -/
theorem words_tableOf {table : MethodTable} (hd : settings.methods.Nodup)
    (hok : outcome (tableOf settings limit file root) = .ok table) :
    table.words = settings.methods.filter (isHandled root) := by
  obtain ⟨p, rfl, hp⟩ := exists_progress hok
  simpa [MethodTable.words] using words_addMethods hd (by simp [MethodTable.words]) hp

/-! ## The routes -/

/-- Every route is that of the handler of its method. -/
def HandlersHave (settings : Settings) (limit : Nat) (root : Node) (table : MethodTable) : Prop :=
  ∀ entry ∈ table, ∃ d path, handler? (exports root) entry.1.word = some d ∧
    entry.2 = routeFrom settings limit root path entry.1 d

/-- A configured method that does not fail adds the route of its handler, if it adds one. -/
theorem HandlersHave.addMethod {p q : Progress} {word : String} (h : HandlersHave settings limit root p.table)
    (hok : outcome (Analysis.addMethod settings limit file root (exports root) p word) = .ok q) :
    HandlersHave settings limit root q.table := by
  obtain ⟨-, rfl⟩ | ⟨d, method, path, hh, hm, -, rfl⟩ := addMethod_cases hok
  · exact h
  · intro entry hentry
    obtain rfl | hold := MethodTable.mem_set hentry
    · exact ⟨d, path, by rwa [Method.ofWord?_eq_some_iff.1 hm], rfl⟩
    · exact h entry hold

/-- **The routes in a table are those of the handlers**, whatever methods are configured. -/
theorem handler_of_mem {table : MethodTable} (hok : outcome (tableOf settings limit file root) = .ok table) :
    HandlersHave settings limit root table := by
  obtain ⟨p, rfl, hp⟩ := exists_progress hok
  have hnone : HandlersHave settings limit root ({} : Progress).table := fun _ h => absurd h List.not_mem_nil
  exact foldlM_preserves (P := fun p => HandlersHave settings limit root p.table)
    (steady_addMethod settings limit file root _) HandlersHave.addMethod hnone hp

/-! ## How often a reason is given -/

/-- Guesses at types are for reasons of their own. -/
theorem count_guessesFor {reason : String} (hdeep : reason ≠ "type_too_deep")
    (hunknown : reason ≠ "return_type_unknown") (word : String) :
    (guessesFor settings limit root word).count reason = 0 := by
  cases hh : handler? (exports root) word with
  | none => simp [guessesFor, hh]
  | some d =>
    rw [guessesFor_of_handler hh]
    unfold guesses
    split <;> split <;> simp [Ne.symm hdeep, Ne.symm hunknown]

/-- Each method that is exported without a function is a reason. -/
theorem count_otherExport : ∀ (words : List String) (placed : Bool),
    (reasonsOver settings limit file root placed words).count "non_function_export" =
      words.countP (isOtherExport root)
  | [], _ => rfl
  | word :: words, placed => by
    rw [reasonsOver, List.count_append, count_otherExport words, List.countP_cons, Nat.add_comm]
    unfold reasonsFor
    rw [List.count_append, List.count_append, count_guessesFor (by decide) (by decide)]
    split <;> split <;> rfl

/-- That the file is outside the routes root is a reason once, if there is a handler. -/
theorem count_outside : ∀ (words : List String) (placed : Bool),
    (reasonsOver settings limit file root placed words).count "routes_root_missing" =
      if !placed && isOutside settings file && words.any (isHandled root) then 1 else 0
  | [], _ => by simp [reasonsOver]
  | word :: words, placed => by
    rw [reasonsOver, List.count_append, count_outside words, List.any_cons]
    unfold reasonsFor
    rw [List.count_append, List.count_append, count_guessesFor (by decide) (by decide)]
    have hother : List.count "routes_root_missing"
        (if isOtherExport root word then ["non_function_export"] else []) = 0 := by
      split <;> rfl
    rw [hother]
    cases placed <;> cases isHandled root word <;> cases isOutside settings file <;> simp

end Analysis

end RouteAtlas
