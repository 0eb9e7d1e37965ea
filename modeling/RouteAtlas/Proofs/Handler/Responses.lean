/-
  RouteAtlas: what a handler responds with.

  * `RespondsWith helpers s e`: the first helper call in the return statement `s` has `e` as its first
    argument;
  * `ListedInOrder sources gives members`: the members are what the sources give, each once and in the
    order in which it is given first;
  * `Responds scope limit helpers d members`: the handler `d` shows these members;
  * `responseType_echo`, `exists_responds_of_covers`: responses of which parts are doubled show the same,
    and those in another order the same members in another order;
  * `responses_shown` joins these.
-/
import RouteAtlas.Proofs.Code.Order
import RouteAtlas.Proofs.Handler.Grown

namespace RouteAtlas.Handler

open RouteAtlas.Code RouteAtlas.Text RouteAtlas.Typing
open Context (answer_exists)

/-! ## Return statements -/

/-- The return statements below a declaration, those of functions inside it included. -/
def returnsBelow (d : FunctionDeclaration) : List Node :=
  d.node.descendantsOf .returnStatement

/-- The first helper call in a return statement has an argument that is no comment. -/
def RespondsWith (helpers : List String) (s e : Node) : Prop :=
  ∃ before call after, s.inner = before ++ call :: after ∧
    (∀ c ∈ before, isHelperCall helpers c = false) ∧ isHelperCall helpers call = true ∧
    (callArguments call).head? = some e

section
variable {scope : Scope} {limit : Nat} {helpers : List String} {d d' : FunctionDeclaration} {s e : Node}

theorem responseOf?_eq_some_iff : responseOf? helpers s = some e ↔ RespondsWith helpers s e := by
  rw [responseOf?, Node.descendants_eq_inner, Option.bind_eq_some_iff]
  constructor
  · rintro ⟨call, hcall, he⟩
    obtain ⟨hhelper, before, after, hinner, hbefore⟩ := List.find?_eq_some_iff_append.1 hcall
    exact ⟨before, call, after, hinner, fun c hc => by simpa using hbefore c hc, hhelper, he⟩
  · rintro ⟨before, call, after, hinner, hbefore, hhelper, he⟩
    exact ⟨call, List.find?_eq_some_iff_append.2
      ⟨hhelper, before, after, hinner, fun c hc => by simpa using hbefore c hc⟩, he⟩

theorem mem_responses_iff : e ∈ responses helpers d ↔ ∃ s ∈ returnsBelow d, RespondsWith helpers s e := by
  simp only [responses, List.mem_filterMap, responseOf?_eq_some_iff]
  rfl

theorem responses_eq_nil_iff :
    responses helpers d = [] ↔ ∀ s ∈ returnsBelow d, ∀ e, ¬ RespondsWith helpers s e := by
  rw [List.eq_nil_iff_forall_not_mem]
  simp only [mem_responses_iff, not_exists, not_and]
  exact ⟨fun h s hs e => h e s hs, fun h e s hs => h s hs e⟩

theorem responses_eq : responses helpers d = responsesIn helpers d.node.children := by
  rw [responses, Node.descendantsOf, Node.descendants_eq_inner]
  rfl

/-! ## Types in order -/

/-- What a return statement responds with has a type. -/
def Gives (scope : Scope) (limit : Nat) (helpers : List String) (s : Node) (t : String) : Prop :=
  ∃ e, RespondsWith helpers s e ∧ scope.typeOf limit e = some t

/-- The members are the texts that sources give, other than the empty one: each once, and one in front of
    another if a source gives it in front of all that give the other. -/
structure ListedInOrder (sources : List Node) (gives : Node → String → Prop) (members : List String) :
    Prop where
  nodup : members.Nodup
  mem_iff : ∀ t, t ∈ members ↔ t ≠ "" ∧ ∃ s ∈ sources, gives s t
  ordered : members.Pairwise fun t t' =>
    ∃ front s back, sources = front ++ s :: back ∧ gives s t ∧ ∀ s' ∈ s :: front, ¬ gives s' t'

/-- The distinct texts of a list that sources give are listed in order. -/
theorem listedInOrder {sources : List Node} {gives : Node → String → Prop} {f : Node → Option String}
    (hf : ∀ s t, f s = some t ↔ gives s t) :
    ListedInOrder sources gives (distinct (sources.filterMap f)) where
  nodup := nodup_distinct _
  mem_iff t := by
    rw [mem_distinct, List.mem_filterMap, and_comm]
    simp only [hf]
  ordered := by
    refine (pairwise_distinct (sources.filterMap f)).imp ?_
    rintro t t' ⟨front, back, hsplit, ht'⟩
    obtain ⟨before, rest, rfl, hfront, hrest⟩ := List.filterMap_eq_append_iff.1 hsplit
    obtain ⟨idle, s, after, rfl, hidle, hs, -⟩ := List.filterMap_eq_cons_iff.1 hrest
    refine ⟨before ++ idle, s, after, by simp, (hf s t).1 hs, fun s' hs' hgives => ht' ?_⟩
    have hs'' := (hf s' t').2 hgives
    rcases List.mem_cons.1 hs' with rfl | hs'
    · rw [hs] at hs''
      exact Option.some.inj hs'' ▸ List.mem_cons_self ..
    · rcases List.mem_append.1 hs' with hs' | hs'
      · rw [← hfront]
        exact List.mem_cons_of_mem _ (List.mem_filterMap.2 ⟨s', hs', hs''⟩)
      · rw [hidle s' hs'] at hs''
        cases hs''

/-- A handler shows members that its return statements give. -/
structure Responds (scope : Scope) (limit : Nat) (helpers : List String) (d : FunctionDeclaration)
    (members : List String) : Prop where
  shown : responseType scope limit helpers d = some (some (joinWith " | " members))
  listed : ListedInOrder (returnsBelow d) (Gives scope limit helpers) members

/-- What a handler shows: nothing if it responds with nothing, and the distinct types of its responses. -/
theorem responseType_eq : responseType scope limit helpers d =
    if responses helpers d = [] then some none
    else (typesOf (scope.typeOf limit) (responses helpers d)).map fun ms => some (joinWith " | " ms) := by
  unfold responseType
  cases responses helpers d with
  | nil => rfl
  | cons e es =>
    rw [if_neg (List.cons_ne_nil e es), typesOf, Option.map_map]
    rfl

theorem responseType_eq_none_iff :
    responseType scope limit helpers d = some none ↔ responses helpers d = [] := by
  rw [responseType_eq]
  split
  · rename_i h
    exact iff_of_true rfl h
  · rename_i h
    refine iff_of_false (fun hnone => ?_) h
    obtain ⟨ms, -, hms⟩ := Option.map_eq_some_iff.1 hnone
    cases hms

/-- A handler whose responses have types shows the distinct ones. -/
theorem responds_of_types (hne : responses helpers d ≠ []) {ts : List String}
    (hts : (responses helpers d).mapM (scope.typeOf limit) = some ts) :
    Responds scope limit helpers d (distinct ts) where
  shown := by
    rw [responseType_eq, if_neg hne, typesOf, hts]
    rfl
  listed := by
    rw [mapM_filterMap hts]
    refine listedInOrder fun s t => ?_
    simp only [Option.bind_eq_some_iff, responseOf?_eq_some_iff]
    rfl

/-! ## Responses that are doubled or moved -/

variable {scope' : Scope}

/-- Two expressions have the same type, each in its scope. -/
def SameType (scope scope' : Scope) (limit : Nat) (e e' : Node) : Prop :=
  scope.typeOf limit e = scope'.typeOf limit e'

/-- Responses of which parts are doubled show the same. -/
theorem responseType_echo
    (h : Echoes (SameType scope scope' limit) (responses helpers d) (responses helpers d')) :
    responseType scope' limit helpers d' = responseType scope limit helpers d := by
  have htypes : typesOf (scope.typeOf limit) (responses helpers d) =
    typesOf (scope'.typeOf limit) (responses helpers d') := h.types
  rw [responseType_eq, responseType_eq, htypes]
  exact if_congr h.eq_nil_iff.symm rfl rfl

/-- Responses in another order show the same members in another order. -/
theorem exists_responds_of_covers
    (h : Covers (SameType scope scope' limit) (responses helpers d) (responses helpers d')) :
    (responseType scope limit helpers d = some none ↔ responseType scope' limit helpers d' = some none) ∧
      ∀ members, Responds scope limit helpers d members →
        ∃ members', Responds scope' limit helpers d' members' ∧ members'.Perm members := by
  have hnil : responses helpers d = [] ↔ responses helpers d' = [] := by
    simp only [List.eq_nil_iff_forall_not_mem]
    constructor
    · intro hnone e' he'
      obtain ⟨e, he, -⟩ := h.right e' he'
      exact hnone e he
    · intro hnone e he
      obtain ⟨e', he', -⟩ := h.left e he
      exact hnone e' he'
  refine ⟨by rw [responseType_eq_none_iff, responseType_eq_none_iff, hnil], fun members hmembers => ?_⟩
  have hshown := hmembers.shown
  have hne : responses helpers d ≠ [] := fun hnone => by
    rw [responseType_eq_none_iff.2 hnone] at hshown
    cases hshown
  rw [responseType_eq, if_neg hne, typesOf, Option.map_map] at hshown
  obtain ⟨ts, hts, -⟩ := Option.map_eq_some_iff.1 hshown
  obtain ⟨us, hus, hperm⟩ := h.types hts
  refine ⟨distinct us, responds_of_types (mt hnil.2 hne) hus, hperm.trans ?_⟩
  have hlisted := (responds_of_types hne hts).listed
  refine (List.perm_ext_iff_of_nodup hlisted.nodup hmembers.listed.nodup).2 fun t => ?_
  rw [hlisted.mem_iff, hmembers.listed.mem_iff]

/-- Return statements in another order have their responses in another order. -/
theorem covers_of_returns (h : Permuted (fun s s' =>
      Option.Rel (SameType scope scope' limit) (responseOf? helpers s) (responseOf? helpers s'))
      (returnsBelow d) (returnsBelow d')) :
    Covers (SameType scope scope' limit) (responses helpers d) (responses helpers d') := by
  have heach : ∀ d : FunctionDeclaration, responses helpers d =
      (returnsBelow d).flatMap fun s => (responseOf? helpers s).toList := fun d =>
    List.filterMap_eq_flatMap_toList _ _
  rw [heach, heach]
  refine h.covers fun s s' hrel => ?_
  obtain ⟨he, he'⟩ | ⟨e, e', he, he', hsame⟩ := rel_cases hrel <;> rw [he, he']
  · exact ⟨nofun, nofun⟩
  · exact ⟨List.forall_mem_singleton.2 ⟨e', List.mem_singleton_self _, hsame⟩,
      List.forall_mem_singleton.2 ⟨e, List.mem_singleton_self _, hsame⟩⟩

theorem covers_of_outerReturns (h : Permuted (Grown helpers (SameType scope scope' limit))
      (outerReturnsIn d.node.children) (outerReturnsIn d'.node.children)) :
    Covers (SameType scope scope' limit) (responses helpers d) (responses helpers d') := by
  rw [responses_eq, responses_eq, responsesIn_eq, responsesIn_eq d'.node.children]
  exact h.covers fun s s' hgrown => hgrown.responses.covers

/-- **What a handler responds with.**  A handler shows no response exactly if no return statement below it,
    those in inner functions included, has an argument that is no comment in its first helper call.
    Otherwise it shows the distinct types of these arguments, in the order in which return statements give
    them first, which is that of the source; they have types in all modules that stay below the limit.
    Return statements that are doubled, and others put in that call no helper, change nothing where the
    arguments of the helper calls keep their types.  Return statements in another order show the same types
    in another order where each one still responds with the same type, and so do those in no other return
    statement. -/
theorem responses_shown (scope scope' : Scope) (limit : Nat) (helpers : List String)
    (d d' : FunctionDeclaration) :
    (responseType scope limit helpers d = some none ↔
      ∀ s ∈ returnsBelow d, ∀ e, ¬ RespondsWith helpers s e) ∧
    ((∃ s ∈ returnsBelow d, ∃ e, RespondsWith helpers s e) →
      (∀ s ∈ returnsBelow d, ∀ e, RespondsWith helpers s e → ∃ t, scope.typeOf limit e = some t) →
      ∃ members, Responds scope limit helpers d members) ∧
    (∀ root, ScopeWithin root scope → d.node ∈ root.preorder → chainBound root scope ≤ limit →
      ∀ s ∈ returnsBelow d, ∀ e, RespondsWith helpers s e → ∃ t, scope.typeOf limit e = some t) ∧
    (d.node.InOrder → (returnsBelow d).Pairwise (fun s s' => s.start ≤ s'.start) ∧
      ∀ s ∈ returnsBelow d, s.inner.Pairwise fun c c' => c.start ≤ c'.start) ∧
    (Grown helpers (SameType scope scope' limit) d.node d'.node →
      responseType scope' limit helpers d' = responseType scope limit helpers d) ∧
    (Permuted (fun s s' => Option.Rel (SameType scope scope' limit) (responseOf? helpers s)
          (responseOf? helpers s')) (returnsBelow d) (returnsBelow d') ∨
        Permuted (Grown helpers (SameType scope scope' limit)) (outerReturnsIn d.node.children)
          (outerReturnsIn d'.node.children) →
      (responseType scope limit helpers d = some none ↔ responseType scope' limit helpers d' = some none) ∧
      ∀ members, Responds scope limit helpers d members →
        ∃ members', Responds scope' limit helpers d' members' ∧ members'.Perm members) := by
  refine ⟨responseType_eq_none_iff.trans responses_eq_nil_iff, fun ⟨s, hs, e, he⟩ htyped => ?_,
    fun root hscope hd hlimit s hs e he => ?_, fun horder => ?_, fun hgrown => ?_, fun hmoved => ?_⟩
  · have hne : responses helpers d ≠ [] := List.ne_nil_of_mem (mem_responses_iff.2 ⟨s, hs, he⟩)
    obtain ⟨ts, hts⟩ := exists_mapM_some fun e he => by
      obtain ⟨s, hs, hse⟩ := mem_responses_iff.1 he
      exact htyped s hs e hse
    exact ⟨_, responds_of_types hne hts⟩
  · have hwithin : (Call.infer e).Within root :=
      mem_preorder_of_mem_responses hd (mem_responses_iff.2 ⟨s, hs, he⟩)
    obtain ⟨t, ht⟩ := answer_exists hscope hwithin
    exact ⟨t, ht limit hlimit⟩
  · refine ⟨Node.pairwise_descendantsOf horder _, fun s hs => ?_⟩
    have hbelow := Node.mem_preorder_of_mem_descendants (List.mem_filter.1 hs).1
    exact Node.pairwise_inner (horder.below hbelow)
  · refine responseType_echo ?_
    rw [responses_eq, responses_eq]
    cases hgrown with
    | intro _ _ _ hchildren => exact hchildren.responses fun _ _ _ => Grown.responses
  · exact exists_responds_of_covers (hmoved.elim covers_of_returns covers_of_outerReturns)

end

/-- The statement `return e;`. -/
def returning (e : Node) : Node :=
  .planted .returnStatement none "" [.planted .token none "return" [], e]

/-- A call of a name. -/
def calling (name : String) (arguments : List Node) : Node :=
  .planted .call none "" [.planted .identifier (some .callee) name [],
    .planted .arguments (some .arguments) "" arguments]

/-- A function without parameters. -/
def callback (statements : List Node) : Node :=
  .planted .arrowFunction none "" [.planted .parameters (some .parameters) "()" [],
    .planted .block (some .body) "" statements]

/-- A handler with the given statements. -/
def answering (statements : List Node) : FunctionDeclaration :=
  let function := Node.planted .functionDeclaration (some .declaration) "" [nameNode "GET",
    .planted .parameters (some .parameters) "()" [], .planted .block (some .body) "" statements]
  { name := "GET", node := function, function := function,
    statement := .planted .exportStatement none "" [function], writtenType := none }

/-- The number `1`. -/
def oneNode : Node :=
  .planted .number none "1" []

/-- The text `'a'`. -/
def textNode : Node :=
  .planted .string none "'a'" []

/-- The statements `return json(1);` and `return json('a');`. -/
def jsonOne : Node :=
  returning (calling "json" [oneNode])

def jsonText : Node :=
  returning (calling "json" [textNode])

/-- Two responses, with one of them doubled and a return statement put in, and the other way round. -/
theorem responses_shown_two :
    (∃ limit members, Responds [] limit ["json"] (answering [jsonOne, jsonText]) members ∧
      ∃ members', Responds [] limit ["json"] (answering [jsonText, jsonOne]) members' ∧
        members'.Perm members) ∧
    (returnsBelow (answering [jsonOne, jsonText])).Pairwise (fun s s' => s.start ≤ s'.start) ∧
    responseType [] 2 ["json"] (answering [jsonOne, jsonText]) = some (some "number | string") ∧
    responseType [] 2 ["json"] (answering [jsonOne, jsonOne, returning textNode, jsonText]) =
      some (some "number | string") := by
  have hone : RespondsWith ["json"] jsonOne oneNode := by
    rw [← responseOf?_eq_some_iff, responseOf?_eq]
    rfl
  have hreturns : returnsBelow (answering [jsonOne, jsonText]) = [jsonOne, jsonText] := by
    rw [returnsBelow, Node.descendantsOf, Node.descendants_eq_inner]
    rfl
  have hfirst : jsonOne ∈ returnsBelow (answering [jsonOne, jsonText]) := by
    rw [hreturns]
    exact List.mem_cons_self ..
  have hsame : ∀ (limit : Nat) (n : Node), Grown ["json"] (SameType [] [] limit) n n := fun limit =>
    Grown.refl fun _ => rfl
  have hgrown : Grown ["json"] (SameType [] [] 2) (answering [jsonOne, jsonText]).node
      (answering [jsonOne, jsonOne, returning textNode, jsonText]).node :=
    .intro rfl rfl (fun h => absurd h (by decide)) (.cons (hsame 2 _) (.cons (hsame 2 _) (.cons
      (.intro rfl rfl (fun h => absurd h (by decide)) (.again rfl (hsame 2 _) (hsame 2 _)
        (.put rfl (by decide) (.cons (hsame 2 _) .nil)))) .nil)))
  have hshown := responses_shown [] [] 2 ["json"] (answering [jsonOne, jsonText])
    (answering [jsonOne, jsonOne, returning textNode, jsonText])
  have hmoved := responses_shown [] [] (chainBound (answering [jsonOne, jsonText]).node []) ["json"]
    (answering [jsonOne, jsonText]) (answering [jsonText, jsonOne])
  have htyped := hmoved.2.2.1 (answering [jsonOne, jsonText]).node
    (List.forall_mem_nil _) (Node.mem_preorder_self _) (Nat.le_refl _)
  obtain ⟨members, hmembers⟩ := hmoved.2.1 ⟨jsonOne, hfirst, oneNode, hone⟩ htyped
  have houter := hmoved.2.2.2.2.2 (.inr ⟨[jsonText, jsonOne], List.Perm.swap .., .cons (hsame _ _)
    (.cons (hsame _ _) .nil)⟩)
  have htext : responseType [] 2 ["json"] (answering [jsonOne, jsonText]) = some (some "number | string") := by
    decide +kernel
  exact ⟨⟨_, members, hmembers, houter.2 members hmembers⟩, (hshown.2.2.2.1 (by decide)).1, htext,
    (hshown.2.2.2.2.1 hgrown).trans htext⟩

/-- Two return statements in callbacks around a response: `f(() => { … }, json('a'), () => { … })`. -/
def betweenCallbacks (first second : Node) : FunctionDeclaration :=
  answering [returning (calling "f" [callback [first], calling "json" [textNode], callback [second]])]

/-- A function `(a = () => { … }) => 1`, whose parameter is written as a text. -/
def withDefault (text : String) (statements : List Node) : Node :=
  .planted .arrowFunction none "" [
    .planted .parameters (some .parameters) "" [
      .planted .requiredParameter none text [callback statements]],
    .planted .number (some .body) "1" []]

/-- A return statement that is put into what is responded with, or doubled in a text that is copied from
    it, changes its type.  Return statements in another one that change places can change the first
    helper call of that one. -/
theorem responses_nested :
    (∀ c ∈ (returning textNode).preorder, isHelperCall ["json"] c = false) ∧
    responseType [] 9 ["json"] (answering [returning (calling "json" [callback [returning oneNode]])]) =
      some (some "() => number") ∧
    responseType [] 9 ["json"]
        (answering [returning (calling "json" [callback [returning oneNode, returning textNode]])]) =
      some (some "() => number | string") ∧
    responseType [] 9 ["json"] (answering [returning (calling "json"
        [withDefault "a = () => \x7b return 1; \x7d" [returning oneNode]])]) =
      some (some "(a = () => \x7b return 1; \x7d) => number") ∧
    responseType [] 9 ["json"] (answering [returning (calling "json"
        [withDefault "a = () => \x7b return 1; return 1; \x7d" [returning oneNode, returning oneNode]])]) =
      some (some "(a = () => \x7b return 1; return 1; \x7d) => number") ∧
    responseType [] 9 ["json"] (betweenCallbacks (returning oneNode) jsonOne) =
      some (some "string | number") ∧
    responseType [] 9 ["json"] (betweenCallbacks jsonOne (returning oneNode)) = some (some "number") := by
  refine ⟨by decide, ?_, ?_, ?_, ?_, ?_, ?_⟩ <;> decide +kernel

end RouteAtlas.Handler
