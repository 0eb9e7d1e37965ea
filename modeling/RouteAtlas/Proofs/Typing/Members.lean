/-
  RouteAtlas: members of a constant, and its type.

  The type of a constant object shows the type of each member, and access to a member looks it up.  These
  are two walks over the same object.

  * `shownMembers object` are the members that the type of an object shows, with their keys;
  * `objectRule_eq` and `literalRule_of_shown`: the rules of both walks, over the shown members;
  * `ConstantObject scope resolving o object`: `o` is bound to an object with distinct keys that does not
    refer back to it;
  * `infer_constant` and `infer_access`: the type of the constant, and of access to one of its members;
  * `access_shown_iff` joins these: access gives what is shown, but for methods and for `length`.
-/
import RouteAtlas.Proofs.Typing.Freed
import RouteAtlas.Proofs.Typing.Limit

namespace RouteAtlas.Typing

open RouteAtlas.Code RouteAtlas.Text
open Context (answer)

/-! ## Members that are shown -/

/-- The key of a member, if the type of its object shows it. -/
def shownKey? (m : Node) : Option String :=
  match m.kind with
  | .pair => propertyKey? (m.field? .key)
  | .shorthand => some m.text
  | .methodDefinition => propertyKey? (m.field? .name)
  | _ => none

/-- The members of those given that the type of their object shows, with their keys. -/
def shownOf (ms : List Node) : List (String × Node) :=
  ms.filterMap fun m => (shownKey? m).map fun key => (key, m)

/-- The members that the type of an object shows, with their keys. -/
def shownMembers (object : Node) : List (String × Node) :=
  shownOf object.named

/-- What the type of a member is asked from. -/
def memberAsk (resolving : List String) (m : Node) : Question :=
  match m.kind with
  | .pair => .field resolving m .value
  | .shorthand => .call resolving (.resolve m.text)
  | _ => .call resolving (.functionType m)

section
variable {resolving : List String} {key : String} {m : Node} {ms : List Node}

theorem memberQuestion_eq (resolving : List String) (m : Node) :
    memberQuestion resolving m = (shownKey? m).map fun key => (key, memberAsk resolving m) := by
  unfold memberQuestion shownKey? memberAsk
  cases m.kind <;> rfl

theorem memberAsk_mapMarks (f : List String → List String) (resolving : List String) (m : Node) :
    (memberAsk resolving m).mapMarks f = memberAsk (f resolving) m := by
  unfold memberAsk
  split <;> simp

theorem objectRule_eq (resolving : List String) (object : Node) : objectRule resolving object =
    ⟨(shownMembers object).map fun entry => memberAsk resolving entry.2, fun types =>
      objectText (List.zipWith memberText ((shownMembers object).map Prod.fst) types)⟩ := by
  have hquestions : object.named.filterMap (memberQuestion resolving) =
      (shownMembers object).map fun entry => (entry.1, memberAsk resolving entry.2) := by
    unfold shownMembers shownOf
    rw [List.map_filterMap]
    refine List.filterMap_congr fun m _ => ?_
    rw [memberQuestion_eq, Option.map_map]
    rfl
  unfold objectRule
  simp only [hquestions, List.map_map]
  rfl

theorem expressionRule_of_object {object : Node} (h : object.kind = .object) (resolving : List String) :
    expressionRule resolving object = objectRule resolving object := by
  simp only [expressionRule, h]

/-- Access to a member looks for a pair or a name with the key. -/
theorem literalRule_cons (resolving : List String) (key : String) (m : Node) (ms : List Node) :
    literalRule resolving key (m :: ms) =
      if shownKey? m = some key ∧ m.kind ≠ .methodDefinition then .one (memberAsk resolving m) id
      else literalRule resolving key ms := by
  rw [literalRule]
  unfold shownKey? memberAsk
  cases hkind : m.kind with
  | pair => by_cases hkey : propertyKey? (m.field? .key) = some key <;> simp [hkey]
  | shorthand => by_cases hkey : m.text = key <;> simp [hkey]
  | _ => simp

theorem shownOf_cons_some (h : shownKey? m = some key) : shownOf (m :: ms) = (key, m) :: shownOf ms := by
  simp [shownOf, h]

theorem shownOf_cons_none (h : shownKey? m = none) : shownOf (m :: ms) = shownOf ms := by
  simp [shownOf, h]

/-- A key that no member shows has no type. -/
theorem literalRule_of_not_shown (h : key ∉ (shownOf ms).map Prod.fst) :
    literalRule resolving key ms = .plain any := by
  induction ms with
  | nil => rfl
  | cons m ms ih =>
    rw [literalRule_cons]
    cases hkey : shownKey? m with
    | none =>
      rw [shownOf_cons_none hkey] at h
      simpa using ih h
    | some other =>
      rw [shownOf_cons_some hkey, List.map_cons, List.mem_cons, not_or] at h
      rw [if_neg fun hm => h.1 (Option.some.inj hm.1).symm]
      exact ih h.2

/-- Of distinct keys, access to one gives the type of its member, and a method has none. -/
theorem literalRule_of_shown (hkeys : ((shownOf ms).map Prod.fst).Nodup) (h : (key, m) ∈ shownOf ms) :
    literalRule resolving key ms =
      if m.kind = .methodDefinition then .plain any else .one (memberAsk resolving m) id := by
  induction ms with
  | nil => cases h
  | cons first ms ih =>
    rw [literalRule_cons]
    cases hkey : shownKey? first with
    | none =>
      rw [shownOf_cons_none hkey] at hkeys h
      simpa using ih hkeys h
    | some other =>
      rw [shownOf_cons_some hkey] at hkeys h
      obtain ⟨hother, hkeys⟩ := List.nodup_cons.1 hkeys
      rcases List.mem_cons.1 h with heq | hrest
      · obtain ⟨rfl, rfl⟩ := Prod.mk.inj heq
        by_cases hmethod : m.kind = .methodDefinition
        · rw [if_neg fun hm => hm.2 hmethod, if_pos hmethod]
          exact literalRule_of_not_shown hother
        · rw [if_pos ⟨rfl, hmethod⟩, if_neg hmethod]
      · have hne : other ≠ key := by
          rintro rfl
          exact hother (List.mem_map.2 ⟨_, hrest, rfl⟩)
        rw [if_neg fun hm => hne (Option.some.inj hm.1)]
        exact ih hkeys hrest

end

/-! ## Constants -/

/-- A name is bound to an object whose members have distinct keys and do not refer back to the name, and
    the name is not being resolved. -/
structure ConstantObject (scope : Scope) (resolving : List String) (o : String) (object : Node) : Prop where
  bound : scope.find? o = some (.value object)
  literal : object.kind = .object
  keys : ((shownMembers object).map Prod.fst).Nodup
  plain : IsPlainName o
  /-- The name is none that the language knows. -/
  unknown : o ∉ ["undefined", "NaN", "Infinity"]
  unmarked : ∀ mark ∈ resolving, markedName mark ≠ o
  aside : ∀ name, Meets scope name resolving (.infer object) → name ≠ o ∧ IsPlainName name

namespace ConstantObject

variable {scope : Scope} {resolving : List String} {o key : String} {object m n x : Node}
  {limit : Nat} {shown type : String} (h : ConstantObject scope resolving o object)
include h

theorem not_mem : o ∉ resolving := fun hmem =>
  h.unmarked o hmem (markedName_name h.plain)

theorem path_not_mem : o ++ "." ++ key ∉ resolving := fun hmem =>
  h.unmarked _ hmem (markedName_path h.plain key)

theorem freed_eq {mark : String} (hmark : markedName mark = o) : freed o (mark :: resolving) = resolving :=
  (freed_cons_self hmark).trans (freed_eq_self h.unmarked)

/-- The object has the same type while the name is being resolved. -/
theorem answer_object (limit : Nat) :
    answer scope limit (o :: resolving) (.infer object) = answer scope limit resolving (.infer object) := by
  have hfreed := h.freed_eq (markedName_name h.plain)
  rw [← answer_freed (o := o) limit (o :: resolving) (.infer object), hfreed]
  rw [hfreed]
  exact h.aside

/-- **The type of the constant** shows the type of each member. -/
theorem infer_constant (hx : x.kind = .identifier) (hname : x.text = o)
    (hshown : infer scope limit resolving x = some shown) :
    ∃ below types, limit = below + 2 ∧
      (shownMembers object).mapM (fun entry =>
        (memberAsk resolving entry.2).answered (answer scope below)) = some types ∧
      shown = objectText (List.zipWith memberText ((shownMembers object).map Prod.fst) types) := by
  obtain ⟨hundefined, hnumber⟩ : o ≠ "undefined" ∧ ¬ (o = "NaN" ∨ o = "Infinity") := by
    simpa using h.unknown
  cases limit with
  | zero => cases hshown
  | succ limit =>
    have hresolved : resolve (infer scope limit) resolving scope o = some shown := by
      rw [← hshown, infer, typeOf, hx]
      simp [nameType, hname, hundefined, hnumber]
    have hobject : answer scope limit (o :: resolving) (.infer object) = some shown := by
      rw [← hresolved, resolve, if_neg (by simpa using h.not_mem), h.bound]
      rfl
    rw [h.answer_object] at hobject
    cases limit with
    | zero => cases hobject
    | succ below =>
      have hrule : answer scope (below + 1) resolving (.infer object) =
          (objectRule resolving object).apply (answer scope below) := by
        rw [apply_objectRule]
        simp only [answer, infer, typeOf, h.literal]
      rw [hrule, objectRule_eq] at hobject
      obtain ⟨types, htypes, hgives⟩ := Option.map_eq_some_iff.1 hobject
      rw [List.mapM_map] at htypes
      exact ⟨below, types, rfl, htypes, hgives.symm⟩

/-- What the type of a member is asked from has the same answer while the member is being looked up. -/
theorem answered_member {below : Nat} (hm : (key, m) ∈ shownMembers object)
    (htype : (memberAsk resolving m).answered (answer scope below) = some type) :
    (memberAsk ((o ++ "." ++ key) :: resolving) m).answered (answer scope (below + 1)) = some type := by
  have hfreed := h.freed_eq (markedName_path h.plain key)
  have hmarks : memberAsk resolving m =
      (memberAsk ((o ++ "." ++ key) :: resolving) m).mapMarks (freed o) := by
    rw [memberAsk_mapMarks, hfreed]
  have hasked : memberAsk resolving m ∈ (Call.rule resolving scope (.infer object)).asks := by
    show _ ∈ (expressionRule resolving object).asks
    rw [expressionRule_of_object h.literal resolving, objectRule_eq]
    exact List.mem_map_of_mem (f := fun entry : String × Node => memberAsk resolving entry.2) hm
  rw [hmarks] at htype hasked
  cases hq : memberAsk ((o ++ "." ++ key) :: resolving) m with
  | known known =>
    rw [hq] at htype
    exact htype
  | call marks inner =>
    rw [hq] at htype hasked
    have hinner := answer_freed (o := o) below marks inner fun name hmeets =>
      h.aside name (.asked hasked hmeets)
    exact answer_mono scope 1 below marks inner type (hinner.symm.trans htype)

/-- Access to a member of the constant looks it up in the object. -/
theorem memberRule_access (haccess : accessed? n = some (o, key)) : memberRule resolving scope n =
    if key = "length" then .plain "number"
    else literalRule ((o ++ "." ++ key) :: resolving) key object.named := by
  have hvalue : scope.value? o = some object := by
    have hunwrap : object.unwrap = object := Node.unwrap_of_not_isWrapper (by rw [h.literal]; rfl)
    rw [Scope.value?, h.bound]
    exact congrArg some hunwrap
  unfold accessed? at haccess
  unfold memberRule
  cases hobject : (n.field? .object).map Node.unwrap with
  | none => simp [hobject] at haccess
  | some x =>
    rw [hobject] at haccess
    obtain ⟨hx, rfl, rfl⟩ : x.kind = .identifier ∧ x.text = o ∧ n.fieldText .property = key := by
      simpa using haccess
    have hpath : x.text ++ "." ++ n.fieldText .property ∉ resolving := h.path_not_mem
    by_cases hlength : n.fieldText .property = "length"
    · simp [hlength]
    · simp [hlength, hx, nameMemberRule, hvalue, h.literal, hpath]

/-- **Access to a member** gives the type of the member, but for methods and for `length`. -/
theorem infer_access {below : Nat} (hkind : n.kind = .member) (haccess : accessed? n = some (o, key))
    (hm : (key, m) ∈ shownMembers object)
    (htype : (memberAsk resolving m).answered (answer scope below) = some type) :
    infer scope (below + 2) resolving n =
      some (if key = "length" then "number" else if m.kind = .methodDefinition then any else type) := by
  have hrule : infer scope (below + 2) resolving n =
      (memberRule resolving scope n).apply (answer scope (below + 1)) := by
    rw [apply_memberRule]
    simp only [infer, typeOf, hkind]
  rw [hrule, h.memberRule_access haccess]
  by_cases hlength : key = "length"
  · simp [hlength]
  · rw [if_neg hlength, if_neg hlength, literalRule_of_shown h.keys hm]
    by_cases hmethod : m.kind = .methodDefinition
    · simp [hmethod]
    · rw [if_neg hmethod, if_neg hmethod, Rule.apply_one, h.answered_member hm htype]
      rfl

end ConstantObject

/-- The type of a method is that of a function. -/
theorem ne_any_of_method {scope : Scope} {resolving : List String} {m : Node} {below : Nat} {type : String}
    (hmethod : m.kind = .methodDefinition)
    (htype : (memberAsk resolving m).answered (answer scope below) = some type) : type ≠ any := by
  have hfunction : functionType (infer scope below) resolving m = some type := by
    simp only [memberAsk, hmethod] at htype
    exact htype
  obtain ⟨returned, -, rfl⟩ := Option.map_eq_some_iff.1 hfunction
  intro hany
  have hfirst := congrArg (fun t => t.toList.head?) hany
  simp [any] at hfirst

/-- **What access to a member gives is what the type of the constant shows**, exactly if the member is no
    method, and if it is called `length`, has the type of a number.  For a constant object in any scope,
    whose keys are distinct and whose members do not refer back to it: its type, if it is not too deep, is
    that of an object with a type for each key; access to the member gives this type, `any` for a method,
    and that of a number for `length`. -/
theorem access_shown_iff {scope : Scope} {resolving : List String} {o shown : String} {object x : Node}
    {limit : Nat} (h : ConstantObject scope resolving o object) (hx : x.kind = .identifier)
    (hname : x.text = o) (hshown : infer scope limit resolving x = some shown) :
    ∃ types : List String, (shownMembers object).length = types.length ∧
      shown = objectText (List.zipWith memberText ((shownMembers object).map Prod.fst) types) ∧
      ∀ key m type, ((key, m), type) ∈ (shownMembers object).zip types →
        ∀ n : Node, n.kind = .member → accessed? n = some (o, key) →
          infer scope limit resolving n =
            some (if key = "length" then "number" else if m.kind = .methodDefinition then any else type) ∧
          (infer scope limit resolving n = some type ↔
            if key = "length" then type = "number" else m.kind ≠ .methodDefinition) := by
  obtain ⟨below, types, rfl, htypes, hgives⟩ := h.infer_constant hx hname hshown
  obtain ⟨hlength, hall⟩ := mapM_zip htypes
  refine ⟨types, hlength, hgives, fun key m type hentry n hkind haccess => ?_⟩
  have htype : (memberAsk resolving m).answered (answer scope below) = some type := hall _ hentry
  have hinfer := h.infer_access hkind haccess (List.of_mem_zip hentry).1 htype
  refine ⟨hinfer, ?_⟩
  rw [hinfer, Option.some_inj]
  by_cases hlen : key = "length"
  · rw [if_pos hlen, if_pos hlen, eq_comm]
  · rw [if_neg hlen, if_neg hlen]
    by_cases hmethod : m.kind = .methodDefinition
    · rw [if_pos hmethod]
      exact ⟨fun heq => absurd heq.symm (ne_any_of_method hmethod htype), fun hno => absurd hmethod hno⟩
    · rw [if_neg hmethod]
      exact ⟨fun _ => hmethod, fun _ => rfl⟩

/-- A pair of a key and a value. -/
def pairOf (key : String) (value : Node) : Node :=
  .planted .pair none (key ++ ": " ++ value.text) [.planted .propertyName (some .key) key [], value]

/-- A method without statements. -/
def emptyMethod (key : String) : Node :=
  .planted .methodDefinition none (key ++ "() \x7b\x7d")
    [.planted .propertyName (some .name) key [], .planted .block (some .body) "\x7b\x7d" []]

/-- An object with a pair, a method, and a pair with the key `length`. -/
def stockObject : Node :=
  .planted .object (some .value) "" [pairOf "count" (.planted .number (some .value) "2" []),
    emptyMethod "sell", pairOf "length" (.planted .string (some .value) "'short'" [])]

/-- The name of the object. -/
def stockName : Node :=
  .planted .identifier (some .object) "stock" []

/-- Access to a member of the object. -/
def stockMember (key : String) : Node :=
  .planted .member none ("stock." ++ key) [stockName, .planted .propertyName (some .property) key []]

/-- The scope of the object. -/
def stockScope : Scope :=
  [("stock", .value stockObject)]

/-- A call that looks no name up and asks for nothing meets no name. -/
theorem not_meets {scope : Scope} {resolving : List String} {call : Call} (hname : call.name? = none)
    (hasks : (call.rule resolving scope).asks = []) (name : String) :
    ¬ Meets scope name resolving call := by
  rw [meets_iff, hname, hasks]
  simp

theorem constantObject_stock : ConstantObject stockScope [] "stock" stockObject where
  bound := rfl
  literal := rfl
  keys := by decide
  plain := by decide
  unknown := by decide
  unmarked := nofun
  aside name hmeets := by
    have hasks : (Call.rule [] stockScope (.infer stockObject)).asks =
        [.call [] (.infer (.planted .number (some .value) "2" [])),
          .call [] (.functionType (emptyMethod "sell")),
          .call [] (.infer (.planted .string (some .value) "'short'" []))] := by rfl
    have hmethod : ¬ Meets stockScope name [] (.functionType (emptyMethod "sell")) := by
      rw [meets_of_single (by rfl), not_or]
      exact ⟨nofun, not_meets rfl (by cbv) name⟩
    rw [meets_iff, hasks] at hmeets
    obtain hlooked | ⟨marks, inner, hinner, hmeets⟩ := hmeets
    · cases hlooked
    · simp only [List.mem_cons, List.not_mem_nil, or_false, Question.call.injEq] at hinner
      rcases hinner with ⟨rfl, rfl⟩ | ⟨rfl, rfl⟩ | ⟨rfl, rfl⟩
      · exact absurd hmeets (not_meets rfl rfl name)
      · exact absurd hmeets hmethod
      · exact absurd hmeets (not_meets rfl rfl name)

/-- A method is not found, and a member called `length` is taken for a number. -/
theorem access_shown_iff_stock :
    infer stockScope 3 [] stockName = some "\x7b count: number; sell: () => void; length: string; \x7d" ∧
    infer stockScope 3 [] (stockMember "count") = some "number" ∧
    infer stockScope 3 [] (stockMember "sell") = some any ∧
    infer stockScope 3 [] (stockMember "length") = some "number" := by
  have hshown : infer stockScope 3 [] stockName =
      some "\x7b count: number; sell: () => void; length: string; \x7d" := by cbv
  obtain ⟨types, hlength, -, haccess⟩ := access_shown_iff constantObject_stock rfl rfl hshown
  obtain ⟨count, sell, length, rfl⟩ : ∃ count sell length, types = [count, sell, length] :=
    List.length_eq_three.1 hlength.symm
  have hzip : (shownMembers stockObject).zip [count, sell, length] =
      [(("count", pairOf "count" (.planted .number (some .value) "2" [])), count),
        (("sell", emptyMethod "sell"), sell),
        (("length", pairOf "length" (.planted .string (some .value) "'short'" [])), length)] := by rfl
  rw [hzip] at haccess
  refine ⟨hshown, by cbv, ?_, ?_⟩
  · exact (haccess "sell" _ sell (.tail _ (.head _)) (stockMember "sell") rfl (by cbv)).1
  · exact (haccess "length" _ length (.tail _ (.tail _ (.head _))) (stockMember "length") rfl (by cbv)).1

end RouteAtlas.Typing
