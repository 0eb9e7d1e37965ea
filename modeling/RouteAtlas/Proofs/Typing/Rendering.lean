/-
  RouteAtlas: the texts of inferred types are well formed.

  A rule builds its type of the types that it asks for and of what the module spells out.  Three kinds
  of expressions cut what they show out of a text: `await`, an index, and a type in angle brackets.

  * `WellWritten root`: the types, keys and parameters that are copied from a module are well formed;
  * `Asked root scope resolving call`: a call is made while types of the module are inferred, and
    `Shown root scope t` says that a type is an answer to one, or what a handler responds with;
  * `CleanCuts root scope`: all cuts of the module are clean;
  * `wellFormed_shown_iff`: all types that are shown are well formed exactly if all cuts are clean.
-/
import Mathlib
import RouteAtlas.Handler.Signature
import RouteAtlas.Proofs.Each
import RouteAtlas.Proofs.Typing.Asking
import RouteAtlas.Proofs.Typing.CycleSafety
import RouteAtlas.Proofs.Typing.WellFormed

namespace RouteAtlas.Typing

open RouteAtlas.Code RouteAtlas.Text
open Context (answer)

/-! ## What is copied from a module -/

/-- The types that a node shows as they are written: those behind its colons, the one behind `as`, and
    a constructor with its type arguments. -/
def writtenTypes (n : Node) : List String :=
  (typeTextOf (n.field? .type)).toList ++ (typeTextOf (n.field? .returnType)).toList ++
    match n.kind with
    | .asExpression => (n.named.tail.getLast?.map fun type => collapse type.text).toList
    | .construction => if (n.fieldText .constructor).isEmpty then [] else [constructedType n]
    | _ => []

/-- The keys that a node shows: those of members of objects and of object patterns. -/
def writtenKeys (n : Node) : List String :=
  match n.kind with
  | .pair => (propertyKey? (n.field? .key)).toList
  | .methodDefinition => (propertyKey? (n.field? .name)).toList
  | .shorthand => [n.text]
  | .member => [n.fieldText .property]
  | _ => (patternKey? n).toList

/-- The parameters that a node shows. -/
def writtenParameters (f : Node) : List String :=
  match f.field? .parameter with
  | some p => [p.text]
  | none =>
    match f.field? .parameters with
    | none => []
    | some ps => ps.operands.map fun p => collapse p.text

theorem parametersText_eq (f : Node) : parametersText f = joinWith ", " (writtenParameters f) := by
  unfold parametersText writtenParameters
  cases f.field? .parameter with
  | some p => exact (joinWith_singleton _ _).symm
  | none => cases f.field? .parameters <;> rfl

/-- What is copied from a module is well formed.  Keys and parameters stand in brackets or in front of
    a colon, so it is enough that they are balanced. -/
structure WellWritten (root : Node) : Prop where
  types : ∀ n ∈ root.preorder, ∀ t ∈ writtenTypes n, WellFormed t
  keys : ∀ n ∈ root.preorder, ∀ key ∈ writtenKeys n, Balanced key
  parameters : ∀ n ∈ root.preorder, ∀ p ∈ writtenParameters n, Balanced p

instance (root : Node) : Decidable (WellWritten root) :=
  decidable_of_iff ((∀ n ∈ root.preorder, ∀ t ∈ writtenTypes n, WellFormed t) ∧
    (∀ n ∈ root.preorder, ∀ key ∈ writtenKeys n, Balanced key) ∧
    ∀ n ∈ root.preorder, ∀ p ∈ writtenParameters n, Balanced p)
    ⟨fun h => ⟨h.1, h.2.1, h.2.2⟩, fun h => ⟨h.types, h.keys, h.parameters⟩⟩

section
variable {root n : Node} (hw : WellWritten root)
include hw

theorem WellWritten.declared (hn : n ∈ root.preorder) {type : String}
    (ht : typeTextOf (n.field? .type) = some type) : WellFormed type :=
  hw.types n hn type (by simp [writtenTypes, ht])

theorem WellWritten.returned (hn : n ∈ root.preorder) {type : String}
    (ht : typeTextOf (n.field? .returnType) = some type) : WellFormed type :=
  hw.types n hn type (by simp [writtenTypes, ht])

theorem WellWritten.patternKey (hn : n ∈ root.preorder) {key : String}
    (hkey : patternKey? n = some key) : Balanced key := by
  refine hw.keys n hn key ?_
  have hshown : writtenKeys n = (patternKey? n).toList := by
    unfold patternKey? at hkey
    unfold writtenKeys
    cases hk : n.kind <;> simp [hk] at hkey <;> rfl
  rw [hshown, hkey]
  exact List.mem_singleton_self key

theorem WellWritten.parametersText (hn : n ∈ root.preorder) : Balanced (parametersText n) := by
  rw [parametersText_eq]
  exact .joinWith (by decide) (hw.parameters n hn)

end

/-! ## Scopes -/

/-- What is written down of a name is well formed. -/
def WellBound : Binding → Prop
  | .annotated type => WellFormed type
  | .member type key => WellFormed type ∧ Balanced key
  | _ => True

/-- All that is written down of the names of a well-written module is well formed. -/
theorem wellBound_scopeOf {root : Node} {function : Option Node} (hw : WellWritten root)
    (hf : ∀ f ∈ function, f ∈ root.preorder) :
    ∀ entry ∈ Scope.of root function, WellBound entry.2 :=
  HoldsOfParts.scopeOf (P := WellBound)
    { untyped := trivial
      annotated := fun _ hn _ ht => hw.declared hn ht
      member := fun _ hn _ ht _ hm _ hkey => ⟨hw.declared hn ht, hw.patternKey hm hkey⟩
      value := fun _ _ => trivial
      function := fun _ _ => trivial } hf

/-! ## Rules that keep types well formed -/

/-- A type that is there without a call is well formed. -/
def Question.Fine : Question → Prop
  | .known type => WellFormed type
  | .call _ _ => True

/-- A rule gives a well-formed type for well-formed answers to all that it asks for. -/
structure Rule.Sound (answers : Answers) (r : Rule) : Prop where
  fine : ∀ q ∈ r.asks, q.Fine
  gives : ∀ types, r.asks.mapM (Question.answered answers) = some types →
    (∀ t ∈ types, WellFormed t) → WellFormed (r.gives types)

section
variable {answers : Answers} {resolving : List String}

theorem fine_field (n : Node) (role : Role) : (Question.field resolving n role).Fine := by
  unfold Question.field
  split
  · trivial
  · exact wellFormed_any

theorem fine_first {n : Node} {otherwise : String} (h : WellFormed otherwise) :
    (Question.first resolving n otherwise).Fine := by
  unfold Question.first
  split
  · trivial
  · exact h

theorem Rule.Sound.apply {r : Rule} (h : r.Sound answers)
    (hasked : r.Sat fun marks c => ∀ t, answers marks c = some t → WellFormed t) {t : String}
    (ht : r.apply answers = some t) : WellFormed t := by
  obtain ⟨types, htypes, rfl⟩ := Option.map_eq_some_iff.1 ht
  refine h.gives types htypes fun t ht => ?_
  obtain ⟨q, hq, hanswer⟩ := exists_left_of_mem (mapM_eq_some_iff.1 htypes) t ht
  cases q with
  | known type => cases hanswer; exact h.fine _ hq
  | call marks c => exact hasked _ hq t hanswer

theorem Rule.Sound.plain {type : String} (h : WellFormed type) : (Rule.plain type).Sound answers :=
  ⟨fun _ hq => (List.not_mem_nil hq).elim, fun _ _ _ => h⟩

/-- A rule that takes whatever it is given. -/
theorem Rule.Sound.of_forall {qs : List Question} {f : List String → String} (hq : ∀ q ∈ qs, q.Fine)
    (hf : ∀ types, (∀ t ∈ types, WellFormed t) → WellFormed (f types)) : Rule.Sound answers ⟨qs, f⟩ :=
  ⟨hq, fun types _ h => hf types h⟩

theorem Rule.Sound.one {q : Question} {f : String → String} (hq : q.Fine)
    (hf : ∀ t, q.answered answers = some t → WellFormed t → WellFormed (f t)) :
    (Rule.one q f).Sound answers := by
  refine ⟨by simpa [Rule.one] using hq, fun types htypes h => ?_⟩
  have hone : [q].mapM (Question.answered answers) = some types := htypes
  rw [List.mapM_cons] at hone
  obtain ⟨t, ht, hone⟩ := Option.bind_eq_some_iff.1 hone
  cases hone
  exact hf t ht (h t (List.mem_singleton_self t))

theorem Rule.Sound.two {q q' : Question} {f : String → String → String} (hq : q.Fine) (hq' : q'.Fine)
    (hf : ∀ t t', WellFormed t → WellFormed t' → WellFormed (f t t')) :
    (Rule.two q q' f).Sound answers := by
  refine ⟨by simpa [Rule.two] using ⟨hq, hq'⟩, fun types _ h => ?_⟩
  have hhead : ∀ types : List String, (∀ t ∈ types, WellFormed t) → WellFormed (types.headD any) := by
    intro types h
    cases types with
    | nil => exact wellFormed_any
    | cons t ts => exact h t (List.mem_cons_self ..)
  exact hf _ _ (hhead types h) (hhead types.tail fun t ht => h t (List.mem_of_mem_tail ht))

/-- A rule that gives the answer to its question. -/
theorem Rule.Sound.same {q : Question} (hq : q.Fine) : (Rule.one q id).Sound answers :=
  Rule.Sound.one hq fun _ _ h => h

end

/-! ## The rules of inference -/

theorem wellFormed_of_lookup {table : List (String × String)} {key type : String}
    (h : ∀ entry ∈ table, WellFormed entry.2) (ht : table.lookup key = some type) :
    WellFormed type := by
  obtain ⟨before, after, rfl, -⟩ := List.lookup_eq_some_iff.1 ht
  exact h (key, type) (by simp)

theorem wellFormed_knownCall (name : String) : WellFormed ((knownCalls.lookup name).getD any) := by
  cases ht : knownCalls.lookup name with
  | none => exact wellFormed_any
  | some type => exact wellFormed_of_lookup (by decide) ht

theorem wellFormed_memberCallType (text method : String) :
    WellFormed (memberCallType text method) := by
  unfold memberCallType
  split
  · rename_i type ht
    exact wellFormed_of_lookup (by decide) ht
  · repeat' split
    all_goals decide

theorem wellFormed_operatorType (op : String) {left right : String} (hl : WellFormed left)
    (hr : WellFormed right) : WellFormed (operatorType op left right) := by
  unfold operatorType sumType
  split
  · exact wellFormed_union (by simp [hl, hr])
  · repeat' split
    all_goals decide

theorem wellFormed_unaryType (op : String) : WellFormed (unaryType op) := by
  unfold unaryType
  repeat' split
  all_goals decide

section
variable {answers : Answers} {resolving : List String} {root : Node} {scope : Scope}

theorem wellFormed_returned {f : Node} {t : String} (h : WellFormed t) :
    WellFormed (returned f t) := by
  unfold returned
  split
  · exact wellFormed_promiseOf h
  · exact h

theorem sound_returnRule (hw : WellWritten root) {f : Node} (hf : f ∈ root.preorder) :
    (returnRule resolving f).Sound answers := by
  have hvoid : WellFormed (returned f "void") := wellFormed_returned (by decide)
  unfold returnRule
  split
  · rename_i type ht
    exact .plain (hw.returned hf ht)
  · split
    · exact .plain hvoid
    · split
      · exact .one trivial fun t _ h => wellFormed_returned h
      · split
        · exact .plain hvoid
        · refine .of_forall (fun q hq => ?_) fun types h => wellFormed_returned (wellFormed_union h)
          obtain ⟨s, -, rfl⟩ := List.mem_map.1 hq
          exact fine_first (by decide)

theorem sound_functionRule (hw : WellWritten root) {f : Node} (hf : f ∈ root.preorder) :
    (functionRule resolving f).Sound answers :=
  Rule.Sound.one trivial fun _ _ h => wellFormed_function (hw.parametersText hf) h

theorem sound_nameRule (hs : ∀ entry ∈ scope, WellBound entry.2) (name : String) :
    (nameRule resolving scope name).Sound answers := by
  unfold nameRule
  split
  · exact .plain wellFormed_any
  · split
    · rename_i type hb
      exact .plain (hs _ (mem_of_find? hb))
    · rename_i type key hb
      have hmember : WellFormed type ∧ Balanced key := hs _ (mem_of_find? hb)
      exact .plain (wellFormed_memberOf hmember.1 hmember.2)
    · exact .same trivial
    · exact .same trivial
    · exact .plain wellFormed_any
    · exact .plain wellFormed_any

/-- The members that an object shows have keys that are written, and are asked for. -/
theorem memberQuestion_written {m : Node} {key : String} {q : Question}
    (h : memberQuestion resolving m = some (key, q)) : key ∈ writtenKeys m ∧ q.Fine := by
  unfold memberQuestion at h
  unfold writtenKeys
  split at h
  · rename_i hk
    obtain ⟨key', hkey, h⟩ := Option.map_eq_some_iff.1 h
    cases h
    exact ⟨by simp [hk, hkey], fine_field m .value⟩
  · rename_i hk
    cases h
    exact ⟨by simp [hk], trivial⟩
  · rename_i hk
    obtain ⟨key', hkey, h⟩ := Option.map_eq_some_iff.1 h
    cases h
    exact ⟨by simp [hk, hkey], trivial⟩
  · cases h

theorem sound_objectRule (hw : WellWritten root) {n : Node} (hn : n ∈ root.preorder) :
    (objectRule resolving n).Sound answers := by
  have hshown : ∀ shown ∈ n.named.filterMap (memberQuestion resolving),
      Balanced shown.1 ∧ shown.2.Fine := by
    rintro ⟨key, q⟩ hshown
    obtain ⟨m, hm, hq⟩ := List.mem_filterMap.1 hshown
    obtain ⟨hkey, hfine⟩ := memberQuestion_written hq
    exact ⟨hw.keys m (Node.child_mem_preorder hn (Node.mem_children_of_mem_named hm)) key hkey, hfine⟩
  unfold objectRule
  refine .of_forall (fun q hq => ?_) fun types h => wellFormed_objectText fun text ht => ?_
  · obtain ⟨shown, hs, rfl⟩ := List.mem_map.1 hq
    exact (hshown shown hs).2
  · rw [← List.map_uncurry_zip_eq_zipWith] at ht
    obtain ⟨⟨key, type⟩, hpair, rfl⟩ := List.mem_map.1 ht
    obtain ⟨hkey, htype⟩ := List.of_mem_zip hpair
    obtain ⟨shown, hs, rfl⟩ := List.mem_map.1 hkey
    exact wellFormed_memberText (hshown shown hs).1 (h type htype)

theorem sound_arrayRule (n : Node) : (arrayRule resolving n).Sound answers := by
  unfold arrayRule
  split
  · exact .plain (wellFormed_arrayOf wellFormed_any)
  · refine .of_forall (fun q hq => ?_) fun types h => wellFormed_arrayOf (wellFormed_union h)
    obtain ⟨e, -, rfl⟩ := List.mem_map.1 hq
    trivial

theorem sound_binaryRule (n : Node) : (binaryRule resolving n).Sound answers := by
  unfold binaryRule
  simp only
  split
  · exact .plain (by decide)
  · exact .two (fine_field ..) (fine_field ..) fun t t' => wellFormed_operatorType _

theorem sound_assertedRule (hw : WellWritten root) {n : Node} (hn : n ∈ root.preorder)
    (hk : n.kind = .asExpression) : (assertedRule resolving n).Sound answers := by
  unfold assertedRule
  split
  · rename_i type more hnamed
    obtain ⟨last, hlast⟩ : ∃ last, (type :: more).getLast? = some last := ⟨_, List.getLast?_cons⟩
    exact .plain (hw.types n hn _ (by simp [writtenTypes, hk, hnamed, hlast]))
  · exact .same (fine_first wellFormed_any)

theorem wellFormed_constructedType (hw : WellWritten root) {n : Node} (hn : n ∈ root.preorder)
    (hk : n.kind = .construction) : WellFormed (constructedType n) := by
  by_cases hc : (n.fieldText .constructor).isEmpty = true
  · unfold constructedType
    simp only
    rw [if_pos hc]
    exact wellFormed_any
  · exact hw.types n hn _ (by simp [writtenTypes, hk, hc])

theorem sound_callRule (n : Node) : (callRule resolving scope n).Sound answers := by
  unfold callRule
  split
  · exact .plain wellFormed_any
  · split
    · split
      · exact .plain (wellFormed_knownCall _)
      · split
        · exact .plain wellFormed_any
        · split
          · exact .plain wellFormed_any
          · exact .same trivial
    · exact .plain (wellFormed_memberCallType ..)
    · exact .plain wellFormed_any

theorem sound_literalRule (key : String) : ∀ ms : List Node,
    (literalRule resolving key ms).Sound answers
  | [] => .plain wellFormed_any
  | m :: ms => by
    unfold literalRule
    split
    · exact .same (fine_field ..)
    · split
      · exact .same trivial
      · exact sound_literalRule key ms

theorem sound_inferredMemberRule {key : String} (hkey : Balanced key) (object : Node) :
    (inferredMemberRule resolving object key).Sound answers :=
  Rule.Sound.one trivial fun _ _ h => wellFormed_namedMember h hkey

theorem sound_memberRule (hw : WellWritten root) {n : Node} (hn : n ∈ root.preorder)
    (hk : n.kind = .member) : (memberRule resolving scope n).Sound answers := by
  have hkey : Balanced (n.fieldText .property) := hw.keys n hn _ (by simp [writtenKeys, hk])
  unfold memberRule
  simp only
  split
  · exact .plain (by decide)
  · split
    · exact .plain wellFormed_any
    · split
      · unfold nameMemberRule
        simp only
        split
        · split
          · split
            · exact .plain wellFormed_any
            · exact sound_literalRule _ _
          · exact sound_inferredMemberRule hkey _
        · exact sound_inferredMemberRule hkey _
      · split
        · exact sound_literalRule _ _
        · exact sound_inferredMemberRule hkey _

end

/-! ## Texts that are shown -/

/-- A call is made while types of a module are inferred: about a part of it while nothing is being
    resolved, or inside such a call. -/
inductive Asked (root : Node) (scope : Scope) : List String → Call → Prop
  | outside {call : Call} : call.Within root → Asked root scope [] call
  | inside {resolving marks : List String} {call inner : Call} : Asked root scope resolving call →
      .call marks inner ∈ (call.rule resolving scope).asks → Asked root scope marks inner

/-- A type is shown: it answers a call, or it is what a handler of the module responds with. -/
inductive Shown (root : Node) (scope : Scope) : String → Prop
  | answer {resolving : List String} {call : Call} {limit : Nat} {t : String} :
      Asked root scope resolving call → answer scope limit resolving call = some t →
      Shown root scope t
  | response {d : Handler.FunctionDeclaration} {helpers : List String} {limit : Nat} {t : String} :
      d.node ∈ root.preorder → Handler.responseType scope limit helpers d = some (some t) →
      Shown root scope t

/-- What is shown of a part of a text is cut out at its own brackets: a promise that is waited for is
    closed at its end, an array that is indexed has elements, in parentheses of their own if in any, and
    a type in angle brackets is whole without them. -/
structure CleanCuts (root : Node) (scope : Scope) : Prop where
  awaited : ∀ n, n.kind = .await → ∀ resolving, Asked root scope resolving (.infer n) → ∀ limit t,
    inferFirst (infer scope limit) resolving n = some t → CleanCut promiseStart ">" t
  indexed : ∀ n, n.kind = .subscript → ∀ resolving, Asked root scope resolving (.infer n) → ∀ limit t,
    inferField (infer scope limit) resolving n .object = some t → CleanElement t
  bracketed : ∀ n ∈ root.preorder, n.kind = .assertion → WellFormed (bracketedType n)

section
variable {root : Node} {scope : Scope} {resolving : List String}

theorem Asked.within (hs : ScopeWithin root scope) {call : Call}
    (h : Asked root scope resolving call) : call.Within root := by
  induction h with
  | outside h => exact h
  | inside _ hq ih => exact within_of_asked hs ih _ hq

theorem sound_expressionRule (hw : WellWritten root) (hclean : CleanCuts root scope) {n : Node}
    (hasked : Asked root scope resolving (.infer n)) (hn : n ∈ root.preorder) (limit : Nat) :
    (expressionRule resolving n).Sound (answer scope limit) := by
  have hfirst : (Rule.one (.first resolving n any) id).Sound (answer scope limit) :=
    .same (fine_first wellFormed_any)
  have hself : (Rule.one (.call resolving (.functionType n)) id).Sound (answer scope limit) :=
    .same trivial
  unfold expressionRule
  cases hk : n.kind with
  | number =>
    simp only
    split
    · exact .plain (by decide)
    · exact .plain (by decide)
  | identifier =>
    simp only
    split
    · exact .plain (by decide)
    · split
      · exact .plain (by decide)
      · exact .same trivial
  | object => exact sound_objectRule hw hn
  | array => exact sound_arrayRule n
  | parenthesized => exact hfirst
  | satisfies => exact hfirst
  | nonNull => exact hfirst
  | asExpression => exact sound_assertedRule hw hn hk
  | assertion => exact .plain (hclean.bracketed n hn hk)
  | await =>
    refine .one (fine_first wellFormed_any) fun t ht h => (wellFormed_awaited_iff h).2 ?_
    rw [answered_first] at ht
    exact hclean.awaited n hk resolving hasked limit t ht
  | ternary =>
    exact .two (fine_field ..) (fine_field ..) fun yes no hy hn => wellFormed_union (by simp [hy, hn])
  | binary => exact sound_binaryRule n
  | unary => exact .plain (wellFormed_unaryType _)
  | assignment => exact .same (fine_field ..)
  | sequence =>
    simp only
    split
    · exact .same trivial
    · exact .plain wellFormed_any
  | functionDeclaration => exact hself
  | generatorDeclaration => exact hself
  | functionExpression => exact hself
  | generatorExpression => exact hself
  | arrowFunction => exact hself
  | methodDefinition => exact hself
  | construction => exact .plain (wellFormed_constructedType hw hn hk)
  | call => exact .same trivial
  | member => exact .same trivial
  | subscript =>
    refine .one (fine_field ..) fun t ht h => (wellFormed_elementOf_iff h).2 ?_
    rw [answered_field] at ht
    exact hclean.indexed n hk resolving hasked limit t ht
  | _ => exact .plain (by decide)

/-- The rule for every call that is made is sound where all cuts are clean. -/
theorem sound_rule (hw : WellWritten root) (hclean : CleanCuts root scope)
    (hs : ScopeWithin root scope) (hbound : ∀ entry ∈ scope, WellBound entry.2) {call : Call}
    (hasked : Asked root scope resolving call) (limit : Nat) :
    (call.rule resolving scope).Sound (answer scope limit) := by
  have hin : call.Within root := hasked.within hs
  cases call with
  | infer n => exact sound_expressionRule hw hclean hasked hin limit
  | resolve name => exact sound_nameRule hbound name
  | functionType f => exact sound_functionRule hw hin
  | returnType f => exact sound_returnRule hw hin
  | callType n => exact sound_callRule n
  | memberType n => exact sound_memberRule hw hin.1 hin.2

/-- All answers are well formed where all cuts are clean. -/
theorem wellFormed_answer (hw : WellWritten root) (hclean : CleanCuts root scope)
    (hs : ScopeWithin root scope) (hbound : ∀ entry ∈ scope, WellBound entry.2) :
    ∀ (limit : Nat) (resolving : List String) (call : Call), Asked root scope resolving call →
      ∀ t, answer scope limit resolving call = some t → WellFormed t := by
  refine @answer_induction scope _ (fun _ _ _ _ ht => nomatch ht) ?_
  intro limit resolving call ih hasked t ht
  rw [answer_eq] at ht
  refine (sound_rule hw hclean hs hbound hasked limit).apply (fun q hq => ?_) ht
  cases q with
  | known type => trivial
  | call marks inner => exact ih _ hq (hasked.inside hq)

theorem mem_preorder_of_mem_responses {d : Handler.FunctionDeclaration} {helpers : List String}
    {e : Node} (hd : d.node ∈ root.preorder) (he : e ∈ Handler.responses helpers d) :
    e ∈ root.preorder := by
  obtain ⟨statement, hstatement, he⟩ := List.mem_filterMap.1 he
  obtain ⟨call, hcall, he⟩ := Option.bind_eq_some_iff.1 he
  have hs : statement ∈ d.node.preorder :=
    Node.mem_preorder_of_mem_descendants (List.mem_filter.1 hstatement).1
  have hc : call ∈ statement.preorder :=
    Node.mem_preorder_of_mem_descendants (List.mem_of_find?_eq_some hcall)
  have hcroot : call ∈ root.preorder := Node.mem_preorder_trans hc (Node.mem_preorder_trans hs hd)
  unfold Handler.callArguments at he
  split at he
  · rename_i args hargs
    exact grandchild_mem_preorder hcroot (Node.mem_children_of_field? hargs)
      (Node.mem_children_of_mem_named (List.mem_filter.1 (List.mem_of_head? he)).1)
  · cases he

/-- What a handler responds with is well formed if all answers are. -/
theorem wellFormed_responseType
    (h : ∀ resolving call, Asked root scope resolving call → ∀ limit t,
      answer scope limit resolving call = some t → WellFormed t)
    {d : Handler.FunctionDeclaration} {helpers : List String} {limit : Nat} {t : String}
    (hd : d.node ∈ root.preorder)
    (ht : Handler.responseType scope limit helpers d = some (some t)) : WellFormed t := by
  unfold Handler.responseType at ht
  split at ht
  · cases ht
  · rename_i es hne
    obtain ⟨types, htypes, ht⟩ := Option.map_eq_some_iff.1 ht
    cases ht
    refine wellFormed_joined ?_ fun t ht => ?_
    · obtain ⟨e, rest, hes⟩ := List.exists_cons_of_ne_nil hne
      rw [hes, List.mapM_cons] at htypes
      obtain ⟨first, -, htypes⟩ := Option.bind_eq_some_iff.1 htypes
      obtain ⟨others, -, htypes⟩ := Option.bind_eq_some_iff.1 htypes
      cases htypes
      exact List.cons_ne_nil first others
    · obtain ⟨e, he, hanswer⟩ := exists_left_of_mem (mapM_eq_some_iff.1 htypes) t ht
      exact h [] (.infer e) (.outside (mem_preorder_of_mem_responses hd he)) limit t hanswer

/-- An expression whose rule asks one question shows the answer and what the rule makes of it. -/
theorem wellFormed_of_one (h : ∀ t, Shown root scope t → WellFormed t) {n : Node} {q : Question}
    {f : String → String} (hasked : Asked root scope resolving (.infer n))
    (hrule : Call.rule resolving scope (.infer n) = .one q f) (hfine : q.Fine) {limit : Nat}
    {t : String} (ht : q.answered (answer scope limit) = some t) :
    WellFormed t ∧ WellFormed (f t) := by
  constructor
  · cases q with
    | known type => cases ht; exact hfine
    | call marks inner =>
      have hq : .call marks inner ∈ (Call.rule resolving scope (.infer n)).asks := by
        rw [hrule]
        exact List.mem_singleton_self _
      exact h t (.answer (hasked.inside hq) ht)
  · have hanswer := answer_eq scope limit resolving (.infer n)
    rw [hrule, Rule.apply_one, ht] at hanswer
    exact h (f t) (.answer hasked hanswer)

theorem cleanCuts_of_wellFormed (h : ∀ t, Shown root scope t → WellFormed t) :
    CleanCuts root scope where
  awaited := by
    intro n hk resolving hasked limit t ht
    have hrule : Call.rule resolving scope (.infer n) = .one (.first resolving n any) awaited := by
      simp [Call.rule, expressionRule, hk]
    rw [← answered_first] at ht
    obtain ⟨hwhole, hcut⟩ := wellFormed_of_one h hasked hrule (fine_first wellFormed_any) ht
    exact (wellFormed_awaited_iff hwhole).1 hcut
  indexed := by
    intro n hk resolving hasked limit t ht
    have hrule : Call.rule resolving scope (.infer n) =
        .one (.field resolving n .object) elementOf := by
      simp [Call.rule, expressionRule, hk]
    rw [← answered_field] at ht
    obtain ⟨hwhole, hcut⟩ := wellFormed_of_one h hasked hrule (fine_field n .object) ht
    exact (wellFormed_elementOf_iff hwhole).1 hcut
  bracketed := by
    intro n hn hk
    have hrule : Call.rule [] scope (.infer n) = .plain (bracketedType n) := by
      simp [Call.rule, expressionRule, hk]
    have hanswer := answer_eq scope 0 [] (.infer n)
    rw [hrule, Rule.apply_plain] at hanswer
    have hasked : Asked root scope [] (.infer n) := .outside hn
    exact h _ (.answer hasked hanswer)

end

/-- **The types of a module are well formed exactly if its cuts are clean.**  Where what is copied from
    a module is well formed, the types of its expressions, names and functions and of the responses of
    its handlers are well formed, at any depth, if `await`, indices and types in angle brackets cut them
    at their own brackets.  A cut at another bracket shows, since every expression, name and function
    has a type. -/
theorem wellFormed_shown_iff {root : Node} {function : Option Node}
    (hf : ∀ f ∈ function, f ∈ root.preorder) (hw : WellWritten root) :
    ((∀ t, Shown root (Scope.of root function) t → WellFormed t) ↔
      CleanCuts root (Scope.of root function)) ∧
    ∀ call : Call, call.Within root → ∃ t, Shown root (Scope.of root function) t ∧
      ∀ limit, chainBound root (Scope.of root function) ≤ limit →
        answer (Scope.of root function) limit [] call = some t := by
  have hs : ScopeWithin root (Scope.of root function) := scopeOf_within hf
  refine ⟨⟨cleanCuts_of_wellFormed, fun hclean t ht => ?_⟩, fun call hc => ?_⟩
  · have hall := wellFormed_answer hw hclean hs (wellBound_scopeOf hw hf)
    cases ht with
    | answer hasked ht => exact hall _ _ _ hasked t ht
    | response hd ht => exact wellFormed_responseType (fun _ _ hasked _ => hall _ _ _ hasked) hd ht
  · obtain ⟨t, ht⟩ := Context.answer_exists hs hc
    exact ⟨t, .answer (.outside hc) (ht _ (Nat.le_refl _)), ht⟩

/-- A module with a constant that has a value. -/
def constantModule (name : String) (value : Node) : Node :=
  .planted .program none "" [
    .planted .variableDeclaration none "" [
      .planted .declarator none "" [.planted .identifier (some .name) name [], value]]]

/-- A call of `fetch`. -/
def fetchCall : Node :=
  .planted .call none "fetch()" [.planted .identifier (some .callee) "fetch" []]

/-- A module with a constant `page` that waits for `fetch`. -/
def awaitingModule : Node :=
  constantModule "page" (.planted .await (some .value) "await fetch()" [fetchCall])

/-- A promise of a response is cut at its own bracket. -/
theorem wellFormed_shown_awaiting : WellWritten awaitingModule ∧
    CleanCuts awaitingModule (Scope.of awaitingModule none) ∧
    (∀ t, Shown awaitingModule (Scope.of awaitingModule none) t → WellFormed t) ∧
    Shown awaitingModule (Scope.of awaitingModule none) "Response" := by
  have hnone : ∀ f ∈ (none : Option Node), f ∈ awaitingModule.preorder := nofun
  have hw : WellWritten awaitingModule := by decide
  have hkinds : ∀ n ∈ awaitingModule.preorder, (n.kind = .await → n.named.head? = some fetchCall) ∧
      n.kind ≠ .subscript ∧ n.kind ≠ .assertion := by
    simp [awaitingModule, constantModule, fetchCall, Node.planted, Node.preorder, Node.preorders,
      Node.kind, Node.named, Node.children, Node.isNamed]
  have hfetch : ∀ limit resolving t,
      infer (Scope.of awaitingModule none) limit resolving fetchCall = some t →
        t = "Promise<Response>" := by
    intro limit resolving t ht
    cases limit with
    | zero => cases ht
    | succ limit =>
      have hknown : infer (Scope.of awaitingModule none) (limit + 1) resolving fetchCall =
        some "Promise<Response>" := by cbv
      exact Option.some.inj (ht.symm.trans hknown)
  have hclean : CleanCuts awaitingModule (Scope.of awaitingModule none) := by
    refine ⟨fun n hk resolving hasked limit t ht => ?_, fun n hk resolving hasked => ?_,
      fun n hn hk => absurd hk (hkinds n hn).2.2⟩
    · have hn : n ∈ awaitingModule.preorder := hasked.within (scopeOf_within hnone)
      unfold inferFirst at ht
      rw [(hkinds n hn).1 hk] at ht
      rw [hfetch limit resolving t ht]
      exact (wellFormed_awaited_iff (by decide)).1 (by decide)
    · have hn : n ∈ awaitingModule.preorder := hasked.within (scopeOf_within hnone)
      exact absurd hk (hkinds n hn).2.1
  have hasked : Asked awaitingModule (Scope.of awaitingModule none) [] (.resolve "page") :=
    .outside trivial
  have hpage : answer (Scope.of awaitingModule none) 3 [] (.resolve "page") = some "Response" := by
    cbv
  exact ⟨hw, hclean, (wellFormed_shown_iff hnone hw).1.2 hclean, .answer hasked hpage⟩

end RouteAtlas.Typing
