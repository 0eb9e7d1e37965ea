/-
  RouteAtlas: inference of types comes to an end.

  However the names of a module stand for each other, a call of a rule ends, and it leaves what is being
  resolved as it was.

  * `perform_restores` and `perform_answer`: a call takes its marks back out, and its answer is that of
    the rules of `infer`;
  * `perform_chains`: from outside, its chains have a bounded length;
  * `cycle_safe` puts these together for the scope of a module.
-/
import Mathlib
import RouteAtlas.Proofs.Typing.Runs

namespace RouteAtlas.Typing.Context

open RouteAtlas.Code

/-! ## One call -/

/-- A chain raises an error: a call in it does, or it has too many types inside each other. -/
def Failing (faults : Faults) (limit : Nat) (chain : Chain) : Prop :=
  (faults.entering chain = true ∨ faults.leaving chain = true) ∨ limit < inferCount chain

variable {scope : Scope} (faults : Faults) (limit : Nat) {chain : Chain} {call : Call}

/-- Watches for errors; those of calls spoil the result, and so do deep chains if `deep`. -/
def watching (scope : Scope) (deep : Prop) (bound : Nat) : Watch where
  scope
  raises := Failing faults bound
  spoils c := (faults.entering c = true ∨ faults.leaving c = true) ∨ (deep ∧ bound < inferCount c)

theorem watching_sees (deep : Prop) (bound : Nat) : (watching faults scope deep bound).Sees faults where
  raises _ h := Or.inl h
  spoils _ h := Or.inl h

/-- A call runs with the answer to it, unless a call in it raises an error of its own. -/
theorem perform_runs {marks : List String} (hl : Linked scope (⟨call, marks⟩ :: chain)) :
    Runs (watching faults scope False (inferCount chain + limit)) (⟨call, marks⟩ :: chain) marks
      (perform faults scope limit chain call) (answer scope limit marks call) :=
  runs_perform (watching_sees faults False _) (fun _ h => Or.inr h) (Or.inl rfl) hl

/-- A call that does not get too deep runs with the answer to it at any greater limit. -/
theorem perform_runs_deep {marks : List String} (hl : Linked scope (⟨call, marks⟩ :: chain))
    {bound : Nat} (hb : inferCount chain + limit = bound) (extra : Nat) :
    Runs (watching faults scope True bound) (⟨call, marks⟩ :: chain) marks
      (perform faults scope limit chain call) (answer scope (limit + extra) marks call) := by
  subst hb
  exact runs_perform (watching_sees faults True _) (fun _ h => Or.inr h)
    (Or.inr fun _ h => Or.inr ⟨trivial, h⟩) hl

/-- **A call leaves what is being resolved as it was**, whether it gives a type or raises an error. -/
theorem perform_restores {context : Context}
    (hl : Linked scope (⟨call, context.resolving⟩ :: chain)) :
    ((perform faults scope limit chain call).on context).2.resolving = context.resolving := by
  obtain ⟨result, notes, hon, -⟩ := perform_runs faults limit hl
  rw [hon context rfl]

/-- What a call gives depends on nothing in the context but what is being resolved. -/
theorem perform_congr {context context' : Context}
    (hl : Linked scope (⟨call, context.resolving⟩ :: chain))
    (h : context'.resolving = context.resolving) :
    ((perform faults scope limit chain call).on context').1 =
      ((perform faults scope limit chain call).on context).1 := by
  obtain ⟨result, notes, hon, -⟩ := perform_runs faults limit hl
  rw [hon context rfl, hon context' h]

/-- Without faults a call gives the answer to it. -/
theorem perform_answer {context : Context}
    (hl : Linked scope (⟨call, context.resolving⟩ :: chain)) :
    ((perform {} scope limit chain call).on context).1 =
      answer scope limit context.resolving call := by
  obtain ⟨result, notes, hon, -, -, hvalue⟩ := perform_runs {} limit hl
  rw [hon context rfl]
  exact hvalue fun c _ hs => by simp [watching] at hs

/-- The contexts that calls from outside leave have nothing being resolved. -/
theorem Reached.resolving_eq {context : Context} (h : Reached scope context) :
    context.resolving = [] := by
  induction h with
  | fresh => rfl
  | after faults limit call _ ih => rw [perform_restores faults limit (linked_single scope _), ih]

/-! ## Chains of a module -/

variable {root : Node}

/-- Chains that start with a call from outside are within the module, and their length is bounded. -/
theorem chain_bounded (hs : ScopeWithin root scope) (hc : call.Within root)
    (h : Linked scope chain ∧ [⟨call, []⟩] <:+ chain) :
    (∀ frame ∈ chain, frame.Within root scope) ∧ chain.length ≤ chainBound root scope := by
  obtain ⟨hl, before, rfl⟩ := h
  have hlast : (before ++ [(⟨call, []⟩ : Frame)]).getLast? = some ⟨call, []⟩ := by simp
  exact ⟨(hl.within hs ⟨hc, List.nodup_nil, by simp⟩ hlast).1, hl.length_le hs hc hlast⟩

/-- **The chains of a call from outside**: each call in them is right inside the next one, what is being
    resolved is marked once, and their length is bounded. -/
theorem perform_chains {context : Context} (hs : ScopeWithin root scope) (hc : call.Within root)
    (hr : context.resolving = []) :
    ∃ notes, ((perform faults scope limit [] call).on context).2.chains = notes ++ context.chains ∧
      ∀ chain ∈ notes, Linked scope chain ∧ (∀ frame ∈ chain, frame.Within root scope) ∧
        chain.length ≤ chainBound root scope := by
  obtain ⟨result, notes, hon, hlinked, -⟩ :=
    perform_runs faults limit (linked_single scope ⟨call, []⟩)
  exact ⟨notes, by rw [hon context hr], fun chain h =>
    ⟨(hlinked chain h).1, chain_bounded hs hc (hlinked chain h)⟩⟩

/-- **A call from outside ends**: it has an answer, the same one at every limit that the chains of the
    module stay below. -/
theorem answer_exists (hs : ScopeWithin root scope) (hc : call.Within root) :
    ∃ type, ∀ limit, chainBound root scope ≤ limit → answer scope limit [] call = some type := by
  let bound := chainBound root scope
  have hfine : ∀ c, Linked scope c ∧ [⟨call, []⟩] <:+ c → ¬ Failing {} bound c := by
    rintro c h (hfault | hdeep)
    · simp at hfault
    · have hshort : c.length ≤ bound := (chain_bounded hs hc h).2
      have : inferCount c ≤ c.length := List.countP_le_length
      omega
  have hanswer : ∀ extra, ((perform {} scope bound [] call).on {}).1 ≠ none ∧
      ((perform {} scope bound [] call).on {}).1 = answer scope (bound + extra) [] call := by
    intro extra
    obtain ⟨result, notes, hon, hlinked, hraises, hvalue⟩ :=
      perform_runs_deep {} bound (linked_single scope ⟨call, []⟩) (Nat.zero_add bound) extra
    rw [hon {} rfl]
    refine ⟨fun hnone => ?_, hvalue fun c hc hspoiled => ?_⟩
    · obtain ⟨c, hc, hraised⟩ := hraises hnone
      exact hfine c (hlinked c hc) hraised
    · exact hfine c (hlinked c hc) (hspoiled.imp_right And.right)
  obtain ⟨type, htype⟩ := Option.ne_none_iff_exists'.1 (hanswer 0).1
  refine ⟨type, fun limit hlimit => ?_⟩
  obtain ⟨extra, rfl⟩ := Nat.exists_eq_add_of_le hlimit
  rw [← (hanswer extra).2, htype]

/-! ## The scope of a module -/

/-- **Inference is safe from cycles, and comes to an end.**  For the scope of a module, or of a function
    in it: a call leaves what is being resolved as it was, inside any calls, and also where it raises an
    error.  In the chains of a call from outside every name and every member of a name is being resolved
    at most once, and their length is bounded by the number of names, of accessed members of names, and
    the height of the module.  The call has an answer, whatever limit the chains stay below, and neither
    the answer nor an error of the call depends on the calls before it. -/
theorem cycle_safe {root : Node} {function : Option Node}
    (hf : ∀ f ∈ function, f ∈ root.preorder) :
    let scope := Scope.of root function
    (∀ (faults : Faults) (limit : Nat) (chain : Chain) (call : Call) (context : Context),
      Linked scope (⟨call, context.resolving⟩ :: chain) →
      ((perform faults scope limit chain call).on context).2.resolving = context.resolving) ∧
    (∀ (faults : Faults) (limit : Nat) (call : Call) (context : Context),
      call.Within root → context.resolving = [] →
      ∃ notes, ((perform faults scope limit [] call).on context).2.chains = notes ++ context.chains ∧
        ∀ chain ∈ notes, Linked scope chain ∧
          (∀ frame ∈ chain, frame.resolving.Nodup ∧
            ∀ key ∈ frame.resolving, key ∈ boundNames scope ∨ ∃ a ∈ accesses root, key = pathOf a) ∧
          chain.length ≤
            ((boundNames scope).length + (accesses root).length + 1) * (3 * root.height + 1)) ∧
    (∀ call : Call, call.Within root → ∃ type, ∀ limit,
      ((boundNames scope).length + (accesses root).length + 1) * (3 * root.height + 1) ≤ limit →
      answer scope limit [] call = some type) ∧
    (∀ (faults : Faults) (limit : Nat) (call : Call) (context : Context), Reached scope context →
      ((perform faults scope limit [] call).on context).1 =
        ((perform faults scope limit [] call).on {}).1) ∧
    ∀ (limit : Nat) (call : Call) (context : Context), Reached scope context →
      ((perform {} scope limit [] call).on context).1 = answer scope limit [] call := by
  intro scope
  have hs : ScopeWithin root scope := scopeOf_within hf
  refine ⟨fun faults limit chain call context hl => perform_restores faults limit hl,
    fun faults limit call context hc hr => ?_, fun call hc => answer_exists hs hc,
    fun faults limit call context hreached => ?_, fun limit call context hreached => ?_⟩
  · obtain ⟨notes, hnotes, hall⟩ := perform_chains faults limit hs hc hr
    refine ⟨notes, hnotes, fun chain hchain => ?_⟩
    obtain ⟨hl, hwithin, hlength⟩ := hall chain hchain
    refine ⟨hl, fun frame hframe => ⟨(hwithin frame hframe).nodup, fun key hkey => ?_⟩, hlength⟩
    have hkey := (hwithin frame hframe).known key hkey
    rcases List.mem_append.1 hkey with hname | hpath
    · exact Or.inl hname
    · obtain ⟨a, ha, rfl⟩ := List.mem_map.1 hpath
      exact Or.inr ⟨a, ha, rfl⟩
  · exact perform_congr faults limit (linked_single scope _) hreached.resolving_eq
  · rw [perform_answer limit (linked_single scope _), hreached.resolving_eq]

/-- A module with an object that has itself in a function of its own. -/
def selfReferringModule : Node :=
  .planted .program none "" [
    .planted .variableDeclaration none "" [
      .planted .declarator none "" [
        .planted .identifier (some .name) "api" [],
        .planted .object (some .value) "" [
          .planted .pair none "" [
            .planted .propertyName (some .key) "next" [],
            .planted .arrowFunction (some .value) "" [
              .planted .parameters (some .parameters) "()" [],
              .planted .member (some .body) "api.next" [
                .planted .identifier (some .object) "api" [],
                .planted .propertyName (some .property) "next" []]]],
          .planted .pair none "" [
            .planted .propertyName (some .key) "version" [],
            .planted .number (some .value) "2" []]]]]]

/-- The object has a type, in which it does not come up again a second time. -/
theorem cycle_safe_selfReferring :
    (∀ f ∈ (none : Option Node), f ∈ selfReferringModule.preorder) ∧
    ∃ type, (∀ limit, 75 ≤ limit →
        answer (Scope.of selfReferringModule none) limit [] (.resolve "api") = some type) ∧
      type = "\x7b next: () => () => any; version: number; \x7d" := by
  have hf : ∀ f ∈ (none : Option Node), f ∈ selfReferringModule.preorder := by simp
  obtain ⟨-, -, hends, -⟩ := cycle_safe hf
  obtain ⟨type, htype⟩ := hends (.resolve "api") trivial
  have hheight : selfReferringModule.height = 8 := by decide
  have hnames : boundNames (Scope.of selfReferringModule none) = ["api"] := by decide
  have haccesses : accesses selfReferringModule = [("api", "next")] := by cbv
  rw [hheight, hnames, haccesses] at htype
  have hanswer : answer (Scope.of selfReferringModule none) 75 [] (.resolve "api") =
      some "\x7b next: () => () => any; version: number; \x7d" := by cbv
  refine ⟨hf, type, htype, Option.some.inj ?_⟩
  rw [← htype 75 (Nat.le_refl _), hanswer]

end RouteAtlas.Typing.Context
