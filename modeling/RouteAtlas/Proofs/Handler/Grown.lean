/-
  RouteAtlas: return statements that are put in, doubled or moved.

  What a handler responds with is read from its return statements, which can stand in each other.

  * `Echoes E as bs`: the list `bs` is the list `as` with parts of it doubled, up to `E`; what is distinct
    stays the same (`Echoes.types`);
  * `Grown helpers E n n'`: the tree of `n'` is that of `n` with return statements doubled, and with others
    put in that call no helper, where `E` holds between the arguments of the helper calls;
    `Grown.firstCall` and `Grown.responses` say that it calls the same helper first and that its responses
    are an echo;
  * `outerReturns ns`: the return statements among and below some nodes that stand in no other one;
    `mem_responsesIn_iff`: the responses are those of these statements.
-/
import RouteAtlas.Proofs.Handler.Forms
import RouteAtlas.Proofs.Typing.Limit
import RouteAtlas.Proofs.Typing.Union

namespace RouteAtlas.Handler

open RouteAtlas.Code RouteAtlas.Typing

/-! ## Lists that repeat others -/

/-- The second list is the first one with parts of it doubled. -/
inductive Echoes {α β : Type} (E : α → β → Prop) : List α → List β → Prop
  | nil : Echoes E [] []
  | cons {a : α} {b : β} {as : List α} {bs : List β} : E a b → Echoes E as bs →
      Echoes E (a :: as) (b :: bs)
  | again {as xs : List α} {bs bs' ys : List β} : Echoes E as bs → Echoes E as bs' → Echoes E xs ys →
      Echoes E (as ++ xs) (bs ++ (bs' ++ ys))

section
variable {α β : Type} {E : α → β → Prop} {as xs : List α} {bs bs' ys : List β}

theorem Echoes.append (h : Echoes E as bs) (h' : Echoes E xs ys) : Echoes E (as ++ xs) (bs ++ ys) := by
  induction h with
  | nil => exact h'
  | cons he _ ih => exact .cons he ih
  | again h₁ h₂ _ _ _ ih =>
    rw [List.append_assoc, List.append_assoc, List.append_assoc]
    exact .again h₁ h₂ ih

theorem Echoes.eq_nil_iff (h : Echoes E as bs) : as = [] ↔ bs = [] := by
  induction h with
  | nil => exact iff_of_true rfl rfl
  | cons => exact iff_of_false (List.cons_ne_nil _ _) (List.cons_ne_nil _ _)
  | again _ _ _ ih₁ ih₂ ih₃ =>
    simp only [List.append_eq_nil_iff, ← ih₁, ← ih₂, ← ih₃, and_self_left]

/-- The distinct types of several things, if all of them have one. -/
def typesOf (f : α → Option String) (as : List α) : Option (List String) :=
  (as.mapM f).map distinct

theorem distinct_append_congr {ts ts' us us' : List String} (ht : distinct ts = distinct ts')
    (hu : distinct us = distinct us') : distinct (ts ++ us) = distinct (ts' ++ us') := by
  rw [distinct_append, distinct_append, ht, hu]

theorem typesOf_append (f : α → Option String) (as xs : List α) : typesOf f (as ++ xs) =
    (as.mapM f).bind fun ts => (xs.mapM f).map fun us => distinct (ts ++ us) := by
  unfold typesOf
  rw [List.mapM_append]
  cases as.mapM f with
  | none => rfl
  | some ts =>
    cases xs.mapM f with
    | none => rfl
    | some us => rfl

theorem typesOf_append_congr {f : α → Option String} {g : β → Option String}
    (h : typesOf f as = typesOf g bs) (h' : typesOf f xs = typesOf g ys) :
    typesOf f (as ++ xs) = typesOf g (bs ++ ys) := by
  rw [typesOf_append, typesOf_append]
  unfold typesOf at h h'
  cases hts : as.mapM f with
  | none =>
    rw [hts] at h
    rw [Option.map_eq_none_iff.1 h.symm]
    rfl
  | some ts =>
    rw [hts] at h
    obtain ⟨ts', hts', ht⟩ := Option.map_eq_some_iff.1 h.symm
    cases hus : xs.mapM f with
    | none =>
      rw [hus] at h'
      rw [hts', Option.map_eq_none_iff.1 h'.symm]
      rfl
    | some us =>
      rw [hus] at h'
      obtain ⟨us', hus', hu⟩ := Option.map_eq_some_iff.1 h'.symm
      rw [hts', hus']
      exact congrArg some (distinct_append_congr ht.symm hu.symm)

/-- Types that were there before add none. -/
theorem typesOf_again {g : β → Option String} (h : typesOf g bs = typesOf g bs') :
    typesOf g (bs ++ bs') = typesOf g bs := by
  rw [typesOf_append]
  unfold typesOf at h ⊢
  cases hts : bs.mapM g with
  | none => rfl
  | some ts =>
    rw [hts] at h
    obtain ⟨us, hus, hu⟩ := Option.map_eq_some_iff.1 h.symm
    rw [hus]
    exact congrArg some (distinct_append_of_subset fun t ht => hu ▸ ht)

/-- What is doubled adds no types. -/
theorem Echoes.types {f : α → Option String} {g : β → Option String}
    (h : Echoes (fun a b => f a = g b) as bs) : typesOf f as = typesOf g bs := by
  induction h with
  | nil => rfl
  | @cons a b as bs he _ ih =>
    have hone : typesOf f [a] = typesOf g [b] := by simp only [typesOf, List.mapM_cons, he, List.mapM_nil]
    exact typesOf_append_congr hone ih
  | again _ _ _ ih₁ ih₂ ih₃ =>
    rw [← List.append_assoc]
    refine typesOf_append_congr ?_ ih₃
    rw [typesOf_again (ih₁.symm.trans ih₂), ih₁]

end

/-! ## Trees with more return statements -/

/-- Nodes that are related one by one, with return statements among them that call no helper, and with
    others doubled. -/
inductive Among (helpers : List String) (R : Node → Node → Prop) : List Node → List Node → Prop
  | nil : Among helpers R [] []
  | cons {m m' : Node} {ms ms' : List Node} : R m m' → Among helpers R ms ms' →
      Among helpers R (m :: ms) (m' :: ms')
  | put {s : Node} {ms ms' : List Node} : s.kind = .returnStatement →
      (∀ c ∈ s.preorder, isHelperCall helpers c = false) → Among helpers R ms ms' →
      Among helpers R ms (s :: ms')
  | again {s s' s'' : Node} {ms ms' : List Node} : s.kind = .returnStatement → R s s' → R s s'' →
      Among helpers R ms ms' → Among helpers R (s :: ms) (s' :: s'' :: ms')

/-- The second tree is the first one with more return statements; `E` holds between the arguments of
    its helper calls. -/
inductive Grown (helpers : List String) (E : Node → Node → Prop) : Node → Node → Prop
  | intro {n n' : Node} : n.kind = n'.kind → isHelperCall helpers n = isHelperCall helpers n' →
      (isHelperCall helpers n = true → Option.Rel E (callArguments n).head? (callArguments n').head?) →
      Among helpers (Grown helpers E) n.children n'.children → Grown helpers E n n'

section
variable {helpers : List String} {E : Node → Node → Prop} {R : Node → Node → Prop} {n n' : Node}
  {ms ms' ns : List Node}

theorem Among.refl (h : ∀ m ∈ ms, R m m) : Among helpers R ms ms := by
  induction ms with
  | nil => exact .nil
  | cons m ms ih =>
    obtain ⟨hm, hms⟩ := List.forall_mem_cons.1 h
    exact .cons hm (ih hms)

theorem Grown.refl (hE : ∀ e, E e e) (n : Node) : Grown helpers E n n := by
  refine .intro rfl rfl (fun _ => ?_) (Among.refl fun m hm =>
    have := Node.size_lt_of_mem hm
    Grown.refl hE m)
  cases (callArguments n).head? with
  | none => exact .none
  | some e => exact .some (hE e)
termination_by n.size

/-! ### The first helper call -/

/-- The first helper call in a tree. -/
def firstCall? (helpers : List String) (n : Node) : Option Node :=
  n.preorder.find? (isHelperCall helpers)

/-- The first helper call in several trees. -/
def firstCallIn? (helpers : List String) (ns : List Node) : Option Node :=
  (Node.preorders ns).find? (isHelperCall helpers)

theorem firstCallIn?_cons (n : Node) (ns : List Node) :
    firstCallIn? helpers (n :: ns) = (firstCall? helpers n).or (firstCallIn? helpers ns) :=
  List.find?_append

theorem firstCall?_eq (n : Node) : firstCall? helpers n =
    if isHelperCall helpers n = true then some n else firstCallIn? helpers n.children := by
  unfold firstCall? firstCallIn?
  rw [Node.preorder_eq, List.find?_cons]
  cases isHelperCall helpers n <;> rfl

theorem responseOf?_eq (n : Node) : responseOf? helpers n =
    (firstCallIn? helpers n.children).bind fun call => (callArguments call).head? := by
  rw [responseOf?, Node.descendants_eq_inner]
  rfl

/-- `E` holds between the first arguments of two calls. -/
def CallsAlike (E : Node → Node → Prop) (c c' : Node) : Prop :=
  Option.Rel E (callArguments c).head? (callArguments c').head?

theorem rel_or {α β : Type} {S : α → β → Prop} {a b : Option α} {a' b' : Option β}
    (ha : Option.Rel S a a') (hb : Option.Rel S b b') : Option.Rel S (a.or b) (a'.or b') := by
  cases ha with
  | none => exact hb
  | some h => exact .some h

theorem Among.firstCall (h : Among helpers R ms ms')
    (hR : ∀ m ∈ ms, ∀ m', R m m' → Option.Rel (CallsAlike E) (firstCall? helpers m) (firstCall? helpers m')) :
    Option.Rel (CallsAlike E) (firstCallIn? helpers ms) (firstCallIn? helpers ms') := by
  induction h with
  | nil => exact .none
  | @cons m m' _ _ hm _ ih =>
    obtain ⟨hfirst, hrest⟩ := List.forall_mem_cons.1 hR
    rw [firstCallIn?_cons, firstCallIn?_cons]
    exact rel_or (hfirst m' hm) (ih hrest)
  | @put s _ _ _ hnone _ ih =>
    have hs : firstCall? helpers s = none := List.find?_eq_none.2 fun c hc => by simp [hnone c hc]
    rw [firstCallIn?_cons, hs]
    exact ih hR
  | @again s s' s'' _ _ _ hs' hs'' _ ih =>
    obtain ⟨hfirst, hrest⟩ := List.forall_mem_cons.1 hR
    rw [firstCallIn?_cons, firstCallIn?_cons, firstCallIn?_cons]
    -- The copies call a helper first where the statement does: if it calls none, both are passed over.
    have hone := hfirst s' hs'
    have htwo := hfirst s'' hs''
    revert hone htwo
    generalize firstCall? helpers s = c
    generalize firstCall? helpers s' = c'
    generalize firstCall? helpers s'' = c''
    intro hone htwo
    cases hone with
    | none =>
      cases htwo
      exact ih hrest
    | some h => exact .some h

/-- A grown tree calls a helper first where the tree does. -/
theorem Grown.firstCall : ∀ {n n' : Node}, Grown helpers E n n' →
    Option.Rel (CallsAlike E) (firstCall? helpers n) (firstCall? helpers n')
  | n, n', .intro _ hcall harguments hchildren => by
    rw [firstCall?_eq, firstCall?_eq, ← hcall]
    split
    · rename_i h
      exact .some (harguments h)
    · exact hchildren.firstCall fun m hm m' h =>
        have := Node.size_lt_of_mem hm
        Grown.firstCall h
termination_by n => n.size

theorem Among.responseOf? {s s' : Node} (h : Among helpers (Grown helpers E) s.children s'.children) :
    Option.Rel E (responseOf? helpers s) (responseOf? helpers s') := by
  have hfirst := h.firstCall fun _ _ _ => Grown.firstCall
  rw [responseOf?_eq, responseOf?_eq]
  obtain ⟨hc, hc'⟩ | ⟨c, c', hc, hc', hrel⟩ := rel_cases hfirst <;> rw [hc, hc']
  · exact .none
  · exact hrel

/-! ### The responses -/

theorem responsesIn_cons (n : Node) (ns : List Node) :
    responsesIn helpers (n :: ns) = responsesIn helpers [n] ++ responsesIn helpers ns :=
  filterMap_below_cons _ _ n ns

theorem responsesIn_single (n : Node) : responsesIn helpers [n] =
    (if n.kind = .returnStatement then (responseOf? helpers n).toList else []) ++
      responsesIn helpers n.children :=
  filterMap_below_single _ _ n

/-- Where no helper is called, nothing is responded with. -/
theorem responsesIn_eq_nil {s : Node} (h : ∀ c ∈ s.preorder, isHelperCall helpers c = false) :
    responsesIn helpers [s] = [] := by
  refine List.filterMap_eq_nil_iff.2 fun t ht => ?_
  have ht : t ∈ s.preorder := by simpa [Node.preorders] using (List.mem_filter.1 ht).1
  have hnone : t.descendants.find? (isHelperCall helpers) = none := List.find?_eq_none.2 fun c hc => by
    simp [h c (Node.mem_preorder_trans (Node.mem_preorder_of_mem_descendants hc) ht)]
  rw [responseOf?, hnone]
  rfl

theorem Among.responses (h : Among helpers R ms ms')
    (hR : ∀ m ∈ ms, ∀ m', R m m' → Echoes E (responsesIn helpers [m]) (responsesIn helpers [m'])) :
    Echoes E (responsesIn helpers ms) (responsesIn helpers ms') := by
  induction h with
  | nil => exact .nil
  | @cons m m' _ _ hm _ ih =>
    obtain ⟨hfirst, hrest⟩ := List.forall_mem_cons.1 hR
    rw [responsesIn_cons m, responsesIn_cons m']
    exact (hfirst m' hm).append (ih hrest)
  | @put s _ _ _ hnone _ ih =>
    rw [responsesIn_cons s, responsesIn_eq_nil hnone]
    exact ih hR
  | @again s s' s'' _ _ _ hs' hs'' _ ih =>
    obtain ⟨hfirst, hrest⟩ := List.forall_mem_cons.1 hR
    rw [responsesIn_cons s, responsesIn_cons s', responsesIn_cons s'']
    exact .again (hfirst s' hs') (hfirst s'' hs'') (ih hrest)

/-- **What a grown tree responds with.**  It is what the tree responds with, with parts of it doubled. -/
theorem Grown.responses : ∀ {n n' : Node}, Grown helpers E n n' →
    Echoes E (responsesIn helpers [n]) (responsesIn helpers [n'])
  | n, n', .intro hkind _ _ hchildren => by
    have hbelow := hchildren.responses fun m hm m' h =>
      have := Node.size_lt_of_mem hm
      Grown.responses h
    rw [responsesIn_single n, responsesIn_single n', ← hkind]
    refine Echoes.append ?_ hbelow
    split
    · obtain ⟨he, he'⟩ | ⟨e, e', he, he', hrel⟩ := rel_cases hchildren.responseOf? <;> rw [he, he']
      · exact .nil
      · exact .cons hrel .nil
    · exact .nil
termination_by n => n.size

/-! ## Return statements in no other one -/

mutual
/-- The return statements of a tree that stand in no other one. -/
def outerReturns : Node → List Node
  | .mk kind role span text children =>
    if kind = .returnStatement then [.mk kind role span text children] else outerReturnsIn children
/-- The return statements of several trees that stand in no other one. -/
def outerReturnsIn : List Node → List Node
  | [] => []
  | n :: ns => outerReturns n ++ outerReturnsIn ns
end

mutual
theorem responsesIn_single_eq : ∀ n : Node,
    responsesIn helpers [n] = (outerReturns n).flatMap fun s => responsesIn helpers [s]
  | .mk kind role span text children => by
    rw [outerReturns]
    split
    · rw [List.flatMap_singleton]
    · rename_i hkind
      have hn : (Node.mk kind role span text children).kind ≠ .returnStatement := hkind
      rw [responsesIn_single, if_neg hn, List.nil_append]
      exact responsesIn_eq children
/-- The responses in trees are those in their outer return statements. -/
theorem responsesIn_eq : ∀ ns : List Node,
    responsesIn helpers ns = (outerReturnsIn ns).flatMap fun s => responsesIn helpers [s]
  | [] => rfl
  | n :: ns => by
    rw [responsesIn_cons, outerReturnsIn, List.flatMap_append, responsesIn_single_eq n, responsesIn_eq ns]
end

end

/-! ## Responses in another order -/

/-- The second list is the first one in another order, up to `R`. -/
def Permuted {α β : Type} (R : α → β → Prop) (as : List α) (bs : List β) : Prop :=
  ∃ as', as.Perm as' ∧ List.Forall₂ R as' bs

/-- Each member of one list has a counterpart in the other one. -/
structure Covers {α β : Type} (E : α → β → Prop) (as : List α) (bs : List β) : Prop where
  left : ∀ a ∈ as, ∃ b ∈ bs, E a b
  right : ∀ b ∈ bs, ∃ a ∈ as, E a b

section
variable {α β γ δ : Type} {E : α → β → Prop} {as xs : List α} {bs bs' ys : List β}

theorem Covers.append (h : Covers E as bs) (h' : Covers E xs ys) : Covers E (as ++ xs) (bs ++ ys) where
  left a ha := by
    rcases List.mem_append.1 ha with ha | ha
    · obtain ⟨b, hb, he⟩ := h.left a ha
      exact ⟨b, List.mem_append_left _ hb, he⟩
    · obtain ⟨b, hb, he⟩ := h'.left a ha
      exact ⟨b, List.mem_append_right _ hb, he⟩
  right b hb := by
    rcases List.mem_append.1 hb with hb | hb
    · obtain ⟨a, ha, he⟩ := h.right b hb
      exact ⟨a, List.mem_append_left _ ha, he⟩
    · obtain ⟨a, ha, he⟩ := h'.right b hb
      exact ⟨a, List.mem_append_right _ ha, he⟩

theorem Covers.again (h : Covers E as bs) (h' : Covers E as bs') : Covers E as (bs ++ bs') where
  left a ha := by
    obtain ⟨b, hb, he⟩ := h.left a ha
    exact ⟨b, List.mem_append_left _ hb, he⟩
  right b hb := (List.mem_append.1 hb).elim (h.right b) (h'.right b)

theorem Echoes.covers (h : Echoes E as bs) : Covers E as bs := by
  induction h with
  | nil => exact ⟨nofun, nofun⟩
  | @cons a b _ _ he _ ih =>
    have hhead : Covers E [a] [b] :=
      ⟨List.forall_mem_singleton.2 ⟨b, List.mem_singleton_self b, he⟩,
        List.forall_mem_singleton.2 ⟨a, List.mem_singleton_self a, he⟩⟩
    exact hhead.append ih
  | again _ _ _ ih₁ ih₂ ih₃ =>
    rw [← List.append_assoc]
    exact (ih₁.again ih₂).append ih₃

/-- What related lists are made to cover each other if what their members are made to does. -/
theorem Permuted.covers {R : γ → δ → Prop} {cs : List γ} {ds : List δ} (h : Permuted R cs ds)
    {f : γ → List α} {g : δ → List β} (hR : ∀ c d, R c d → Covers E (f c) (g d)) :
    Covers E (cs.flatMap f) (ds.flatMap g) := by
  obtain ⟨cs', hperm, hall⟩ := h
  have hcovers : Covers E (cs'.flatMap f) (ds.flatMap g) := by
    clear hperm
    induction hall with
    | nil => exact ⟨nofun, nofun⟩
    | cons hcd _ ih =>
      rw [List.flatMap_cons, List.flatMap_cons]
      exact (hR _ _ hcd).append ih
  have hmem : ∀ a, a ∈ cs.flatMap f ↔ a ∈ cs'.flatMap f := fun a => (hperm.flatMap_right f).mem_iff
  exact ⟨fun a ha => hcovers.left a ((hmem a).1 ha), fun b hb => by
    obtain ⟨a, ha, he⟩ := hcovers.right b hb
    exact ⟨a, (hmem a).2 ha, he⟩⟩

/-- Things with the same types have the same distinct types, in some order. -/
theorem Covers.types {f : α → Option String} {g : β → Option String}
    (h : Covers (fun a b => f a = g b) as bs) {ts : List String} (hts : as.mapM f = some ts) :
    ∃ us, bs.mapM g = some us ∧ (distinct us).Perm (distinct ts) := by
  have htyped : ∀ b ∈ bs, ∃ t ∈ ts, g b = some t := fun b hb => by
    obtain ⟨a, ha, heq⟩ := h.right b hb
    obtain ⟨t, ht, hat⟩ := exists_right_of_mem (mapM_eq_some_iff.1 hts) a ha
    exact ⟨t, ht, heq ▸ hat⟩
  obtain ⟨us, hus⟩ := exists_mapM_some fun b hb => (htyped b hb).imp fun _ ht => ht.2
  refine ⟨us, hus, perm_distinct fun t => ⟨fun ht => ?_, fun ht => ?_⟩⟩
  · obtain ⟨b, hb, hbt⟩ := exists_left_of_mem (mapM_eq_some_iff.1 hus) t ht
    obtain ⟨t', ht', hbt'⟩ := htyped b hb
    exact Option.some.inj (hbt.symm.trans hbt') ▸ ht'
  · obtain ⟨a, ha, hat⟩ := exists_left_of_mem (mapM_eq_some_iff.1 hts) t ht
    obtain ⟨b, hb, heq⟩ := h.left a ha
    obtain ⟨t', ht', hbt'⟩ := exists_right_of_mem (mapM_eq_some_iff.1 hus) b hb
    exact Option.some.inj (hat.symm.trans (heq.trans hbt')) ▸ ht'

end

end RouteAtlas.Handler
