/-
  RouteAtlas: types at different limits.

  A limit keeps types back that nest too deep, and does not change the others.

  * `Rule.apply_mono`: a rule that gives a type gives the same one where more of what it asks for has
    an answer;
  * `answer_mono`: a call that has an answer has the same one at a higher limit;
  * `responseType_mono` and `declaredType_mono` say so for what handlers give and are, and
    `exists_responseType` and `exists_declaredType` that they have a type at all high limits.
-/
import RouteAtlas.Handler.Signature
import RouteAtlas.Proofs.Each
import RouteAtlas.Proofs.Typing.Asking
import RouteAtlas.Proofs.Typing.CycleSafety
import RouteAtlas.Proofs.Typing.Rendering

namespace RouteAtlas.Typing

open RouteAtlas.Code
open Context (answer answer_exists)

/-! ## More answers -/

/-- A rule gives the same type where more of what it asks for has an answer. -/
theorem Rule.apply_mono {answers answers' : Answers} {r : Rule} {type : String}
    (h : r.Sat fun resolving c => ∀ t, answers resolving c = some t → answers' resolving c = some t)
    (hr : r.apply answers = some type) : r.apply answers' = some type := by
  obtain ⟨types, htypes, hgives⟩ := Option.map_eq_some_iff.1 hr
  refine Option.map_eq_some_iff.2 ⟨types, mapM_mono (fun q hq t ht => ?_) htypes, hgives⟩
  cases q with
  | known type => exact ht
  | call resolving c => exact h _ hq t ht

/-- **A higher limit keeps all types that a lower one has.** -/
theorem answer_mono (scope : Scope) (more : Nat) :
    ∀ (limit : Nat) (resolving : List String) (call : Call) (type : String),
      answer scope limit resolving call = some type →
        answer scope (limit + more) resolving call = some type := by
  refine @answer_induction scope _ (fun _ _ _ h => nomatch h)
    fun limit resolving call hasked type h => ?_
  rw [answer_eq] at h
  rw [Nat.add_right_comm, answer_eq]
  exact Rule.apply_mono hasked h

/-- An expression that has a type has the same one at a higher limit. -/
theorem infer_mono {scope : Scope} {limit : Nat} {resolving : List String} {e : Node} {type : String}
    (more : Nat) (h : infer scope limit resolving e = some type) :
    infer scope (limit + more) resolving e = some type :=
  answer_mono scope more limit resolving (.infer e) type h

/-- An expression has the same type at all limits at which it has one. -/
theorem infer_unique {scope : Scope} {limit limit' : Nat} {resolving : List String} {e : Node}
    {type type' : String} (h : infer scope limit resolving e = some type)
    (h' : infer scope limit' resolving e = some type') : type = type' := by
  have hall := infer_mono limit' h
  rw [Nat.add_comm, infer_mono limit h'] at hall
  exact (Option.some.inj hall).symm

/-! ## Handlers -/

section
variable {root : Node} {scope : Scope} {helpers : List String} {d : Handler.FunctionDeclaration}
  {limit : Nat}

theorem typeOf_mono (more : Nat) {e : Node} {type : String} (h : scope.typeOf limit e = some type) :
    scope.typeOf (limit + more) e = some type :=
  infer_mono more h

theorem typeOfFunction_mono (more : Nat) {f : Node} {type : String}
    (h : scope.typeOfFunction limit f = some type) :
    scope.typeOfFunction (limit + more) f = some type :=
  answer_mono scope more limit [] (.functionType f) type h

theorem responseType_mono (more : Nat) {type : Option String}
    (h : Handler.responseType scope limit helpers d = some type) :
    Handler.responseType scope (limit + more) helpers d = some type := by
  unfold Handler.responseType at h ⊢
  cases hes : Handler.responses helpers d with
  | nil => rw [hes] at h; exact h
  | cons e es =>
    rw [hes] at h
    obtain ⟨types, htypes, hjoined⟩ := Option.map_eq_some_iff.1 h
    exact Option.map_eq_some_iff.2
      ⟨types, mapM_mono (fun _ _ _ ht => typeOf_mono more ht) htypes, hjoined⟩

theorem declaredType_mono (more : Nat) {type : String}
    (h : Handler.declaredType scope limit d = some type) :
    Handler.declaredType scope (limit + more) d = some type := by
  unfold Handler.declaredType at h ⊢
  cases hw : d.writtenType with
  | none =>
    rw [hw] at h
    exact typeOfFunction_mono more h
  | some written =>
    rw [hw] at h
    by_cases hempty : written.isEmpty = true
    · simp only [if_pos hempty] at h ⊢
      exact typeOfFunction_mono more h
    · simp only [if_neg hempty] at h ⊢
      exact h

/-- What a handler responds with has a type at all limits that the chains of the module stay below. -/
theorem exists_responseType (hs : ScopeWithin root scope) (hd : d.node ∈ root.preorder)
    (hl : chainBound root scope ≤ limit) (helpers : List String) :
    ∃ type, Handler.responseType scope limit helpers d = some type := by
  have htyped : ∀ e ∈ Handler.responses helpers d, ∃ type, scope.typeOf limit e = some type := by
    intro e he
    have hwithin : (Call.infer e).Within root := mem_preorder_of_mem_responses hd he
    obtain ⟨type, htype⟩ := answer_exists hs hwithin
    exact ⟨type, htype limit hl⟩
  unfold Handler.responseType
  split
  · exact ⟨none, rfl⟩
  · rename_i es _
    obtain ⟨types, htypes⟩ := exists_mapM_some htyped
    exact ⟨some (joined types), Option.map_eq_some_iff.2 ⟨types, htypes, rfl⟩⟩

/-- A handler has a type at all limits that the chains of the module stay below. -/
theorem exists_declaredType (hs : ScopeWithin root scope) (hf : d.function ∈ root.preorder)
    (hl : chainBound root scope ≤ limit) :
    ∃ type, Handler.declaredType scope limit d = some type := by
  have hwithin : (Call.functionType d.function).Within root := hf
  obtain ⟨type, htype⟩ := answer_exists hs hwithin
  have hfunction : scope.typeOfFunction limit d.function = some type := htype limit hl
  unfold Handler.declaredType
  split
  · split
    · exact ⟨type, hfunction⟩
    · exact ⟨_, rfl⟩
  · exact ⟨type, hfunction⟩

end

end RouteAtlas.Typing
