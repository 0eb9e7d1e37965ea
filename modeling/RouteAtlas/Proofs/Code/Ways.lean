/-
  RouteAtlas: the ways down to the nodes of a tree.

  The same node can stand in a tree several times, so it is the way down to it that tells one place from
  another.  Ways are compared as lists: a node comes before those below it, and these come before those
  below the siblings behind it.

  * `Node.at?` follows a way, and `Node.placed` lists the nodes of a tree with the ways to them;
  * `mem_placed_iff`, `pairwise_placed`: this list has every place of the tree, and their ways grow along it,
    so it is the only such list (`InWayOrder.ext`);
  * `map_placed`: its nodes are those of the recursive walk;
  * `Node.replaceAt` puts another node at the end of a way; `at?_replaceAt` says what is found after this.
-/
import Mathlib.Data.List.Lex
import RouteAtlas.Proofs.Code.Tree

namespace RouteAtlas.Code

/-- A way down: the numbers of the children to go to, the first one first. -/
abbrev Way := List Nat

namespace Node

/-! ## Following a way -/

/-- The node at the end of a way, if the way stays in the tree. -/
def at? : Node → Way → Option Node
  | n, [] => some n
  | n, i :: w => n.children[i]?.bind fun c => c.at? w

variable {c d e m n new : Node} {ns : List Node} {i : Nat} {p q v w : Way}

@[simp] theorem at?_nil (n : Node) : n.at? [] = some n := rfl

theorem at?_cons (n : Node) (i : Nat) (w : Way) :
    n.at? (i :: w) = n.children[i]?.bind fun c => c.at? w := rfl

theorem at?_cons_eq_some_iff :
    n.at? (i :: w) = some d ↔ ∃ c, n.children[i]? = some c ∧ c.at? w = some d := by
  rw [at?_cons, Option.bind_eq_some_iff]

/-- A way to a node below another one goes on behind the way to this. -/
theorem at?_append (n : Node) (v w : Way) : n.at? (v ++ w) = (n.at? v).bind fun m => m.at? w := by
  induction v generalizing n with
  | nil => rfl
  | cons i v ih =>
    rw [List.cons_append, at?_cons, at?_cons]
    cases n.children[i]? with
    | none => rfl
    | some c => exact ih c

/-! ## The places of a tree -/

mutual
/-- The nodes of a tree with the ways to them, a node before those below it. -/
def placed : Node → List (Way × Node)
  | mk kind role span text children =>
    ([], mk kind role span text children) :: placedFrom 0 children
/-- The nodes of several trees with the ways to them; the first tree has the number `i`. -/
def placedFrom (i : Nat) : List Node → List (Way × Node)
  | [] => []
  | n :: ns => (placed n).map (fun e => (i :: e.1, e.2)) ++ placedFrom (i + 1) ns
end

/-- The nodes strictly below a node with the ways to them. -/
def placedBelow (n : Node) : List (Way × Node) :=
  placedFrom 0 n.children

theorem placed_eq (n : Node) : n.placed = ([], n) :: n.placedBelow := by
  cases n
  rw [placed]
  rfl

mutual
/-- The nodes that are listed are those of the recursive walk. -/
theorem map_placed : ∀ n : Node, n.placed.map Prod.snd = n.preorder
  | mk kind role span text children => by
    rw [placed, preorder, List.map_cons, map_placedFrom 0 children]
theorem map_placedFrom : ∀ (i : Nat) (ns : List Node), (placedFrom i ns).map Prod.snd = preorders ns
  | _, [] => by
    rw [placedFrom, preorders, List.map_nil]
  | i, n :: ns => by
    rw [placedFrom, preorders, List.map_append, List.map_map, map_placedFrom (i + 1) ns, ← map_placed n]
    rfl
end

theorem map_placedBelow (n : Node) : n.placedBelow.map Prod.snd = n.inner :=
  map_placedFrom 0 n.children

/-- A way into one of several trees starts with the number of the tree. -/
theorem mem_placedFrom_iff : ∀ {i : Nat} {ns : List Node},
    (w, d) ∈ placedFrom i ns ↔ ∃ j v c, w = (i + j) :: v ∧ ns[j]? = some c ∧ (v, d) ∈ c.placed
  | _, [] => by simp [placedFrom]
  | i, n :: ns => by
    rw [placedFrom, List.mem_append, List.mem_map, mem_placedFrom_iff]
    constructor
    · rintro (⟨⟨v, d⟩, hd, he⟩ | ⟨j, v, c, rfl, hc, hd⟩)
      · cases he
        exact ⟨0, v, n, rfl, rfl, hd⟩
      · exact ⟨j + 1, v, c, by rw [Nat.add_assoc, Nat.add_comm 1], hc, hd⟩
    · rintro ⟨j, v, c, rfl, hc, hd⟩
      cases j with
      | zero =>
        cases hc
        exact Or.inl ⟨(v, d), hd, rfl⟩
      | succ j => exact Or.inr ⟨j, v, c, by rw [Nat.add_assoc, Nat.add_comm 1], hc, hd⟩

theorem cons_mem_placedBelow_iff :
    (i :: w, d) ∈ n.placedBelow ↔ ∃ c, n.children[i]? = some c ∧ (w, d) ∈ c.placed := by
  rw [placedBelow, mem_placedFrom_iff]
  constructor
  · rintro ⟨j, v, c, he, hc, hd⟩
    rw [Nat.zero_add] at he
    cases he
    exact ⟨c, hc, hd⟩
  · rintro ⟨c, hc, hd⟩
    exact ⟨i, w, c, by rw [Nat.zero_add], hc, hd⟩

theorem nil_not_mem_placedBelow : ([], d) ∉ n.placedBelow := by
  rw [placedBelow, mem_placedFrom_iff]
  rintro ⟨j, v, c, he, -⟩
  cases he

/-- **The nodes that are listed are those at the ends of ways.** -/
theorem mem_placed_iff : (w, d) ∈ n.placed ↔ n.at? w = some d := by
  induction w generalizing n with
  | nil =>
    rw [placed_eq, List.mem_cons, or_iff_left nil_not_mem_placedBelow, Prod.mk.injEq, at?_nil,
      Option.some.injEq]
    exact ⟨fun h => h.2.symm, fun h => ⟨rfl, h.symm⟩⟩
  | cons i w ih =>
    rw [placed_eq, List.mem_cons, or_iff_right (fun h => by cases h), cons_mem_placedBelow_iff,
      at?_cons_eq_some_iff]
    exact exists_congr fun c => and_congr_right fun _ => ih

theorem mem_placedBelow_iff : (w, d) ∈ n.placedBelow ↔ w ≠ [] ∧ n.at? w = some d := by
  cases w with
  | nil => exact iff_of_false nil_not_mem_placedBelow fun h => h.1 rfl
  | cons i w =>
    rw [← mem_placed_iff, placed_eq, List.mem_cons, or_iff_right (fun h => by cases h)]
    exact (and_iff_right (List.cons_ne_nil i w)).symm

theorem mem_preorder_of_at? (h : n.at? w = some d) : d ∈ n.preorder := by
  rw [← map_placed]
  exact List.mem_map_of_mem (mem_placed_iff.2 h)

/-! ## The order of ways -/

/-- The nodes of a list are told apart by their ways, and these grow. -/
def InWayOrder (places : List (Way × Node)) : Prop :=
  places.Pairwise fun a b => a.1 < b.1

/-- A way is no greater than those that go on behind it. -/
theorem le_of_prefixed (h : w <+: v) : w ≤ v :=
  le_of_not_gt fun hlt => h.le hlt

theorem InWayOrder.nodup {places : List (Way × Node)} (h : InWayOrder places) : places.Nodup := by
  refine h.imp ?_
  rintro a b hlt rfl
  exact lt_irrefl _ hlt

theorem InWayOrder.map_cons {places : List (Way × Node)} (h : InWayOrder places) (i : Nat) :
    InWayOrder (places.map fun e => (i :: e.1, e.2)) :=
  List.pairwise_map.2 (h.imp fun hlt => List.cons_lt_cons_iff.2 (Or.inr ⟨rfl, hlt⟩))

mutual
/-- **The ways grow along the list of the nodes of a tree.** -/
theorem pairwise_placed : ∀ n : Node, InWayOrder n.placed
  | mk kind role span text children => by
    rw [placed]
    refine List.pairwise_cons.2 ⟨?_, pairwise_placedFrom 0 children⟩
    rintro ⟨w, d⟩ hd
    obtain ⟨j, v, c, rfl, -⟩ := mem_placedFrom_iff.1 hd
    exact List.nil_lt_cons _ _
theorem pairwise_placedFrom : ∀ (i : Nat) (ns : List Node), InWayOrder (placedFrom i ns)
  | _, [] => by
    rw [placedFrom]
    exact .nil
  | i, n :: ns => by
    rw [placedFrom]
    refine List.pairwise_append.2 ⟨(pairwise_placed n).map_cons i, pairwise_placedFrom (i + 1) ns, ?_⟩
    rintro a ha ⟨w, d⟩ hd
    obtain ⟨e, -, rfl⟩ := List.mem_map.1 ha
    obtain ⟨j, v, c, rfl, -⟩ := mem_placedFrom_iff.1 hd
    exact List.cons_lt_cons_iff.2 (Or.inl (by omega))
end

theorem pairwise_placedBelow (n : Node) : InWayOrder n.placedBelow :=
  pairwise_placedFrom 0 n.children

/-- Lists in the order of ways are the same if they have the same members. -/
theorem InWayOrder.ext {places others : List (Way × Node)} (h : InWayOrder places)
    (h' : InWayOrder others) (hmem : ∀ w d, (w, d) ∈ places ↔ (w, d) ∈ others) : places = others := by
  have hperm : places.Perm others :=
    (List.perm_ext_iff_of_nodup h.nodup h'.nodup).2 fun e => hmem e.1 e.2
  exact hperm.eq_of_pairwise (fun a b _ _ hab hba => absurd (lt_trans hab hba) (lt_irrefl _)) h h'

/-! ## Other nodes in a tree -/

/-- The tree with another node at the end of a way; a way that leaves the tree changes nothing. -/
def replaceAt : Node → Way → Node → Node
  | _, [], new => new
  | mk kind role span text children, i :: p, new =>
    mk kind role span text (children.modify i fun c => c.replaceAt p new)

@[simp] theorem replaceAt_nil (n new : Node) : n.replaceAt [] new = new := by
  cases n
  rfl

theorem children_replaceAt_cons (n : Node) (i : Nat) (p : Way) (new : Node) :
    (n.replaceAt (i :: p) new).children = n.children.modify i fun c => c.replaceAt p new := by
  cases n
  rfl

theorem kind_replaceAt (n new : Node) (h : p ≠ []) : (n.replaceAt p new).kind = n.kind := by
  obtain ⟨i, p, rfl⟩ := List.exists_cons_of_ne_nil h
  cases n
  rfl

theorem role_replaceAt (n new : Node) (h : p ≠ []) : (n.replaceAt p new).role = n.role := by
  obtain ⟨i, p, rfl⟩ := List.exists_cons_of_ne_nil h
  cases n
  rfl

/-- What the node at the end of the way `w` becomes when `new` is put at the end of `p`. -/
def replacedWithin (p : Way) (new : Node) (w : Way) (d : Node) : Node :=
  if w <+: p then d.replaceAt (p.drop w.length) new else d

theorem replacedWithin_cons (i : Nat) (p : Way) (new : Node) (w : Way) :
    replacedWithin (i :: p) new (i :: w) = replacedWithin p new w := by
  funext d
  simp [replacedWithin, List.cons_prefix_cons]

theorem replacedWithin_apart (h : ¬ w <+: p) : replacedWithin p new w = id := by
  funext d
  exact if_neg h

/-- A node that is put at the end of a way is found there. -/
theorem at?_replaceAt_self (h : n.at? p = some d) : (n.replaceAt p new).at? p = some new := by
  induction p generalizing n with
  | nil => rw [replaceAt_nil, at?_nil]
  | cons i p ih =>
    obtain ⟨c, hc, hd⟩ := at?_cons_eq_some_iff.1 h
    refine at?_cons_eq_some_iff.2 ⟨c.replaceAt p new, ?_, ih hd⟩
    rw [children_replaceAt_cons, List.getElem?_modify, hc]
    simp

/-- **What is found outside the node that is put into a tree**: the same as before, but for the new node
    in those that it is put into. -/
theorem at?_replaceAt (h : ¬ p <+: w) :
    (n.replaceAt p new).at? w = (n.at? w).map (replacedWithin p new w) := by
  induction w generalizing n p with
  | nil => simp [replacedWithin]
  | cons j w ih =>
    have hne : p ≠ [] := by
      rintro rfl
      exact h List.nil_prefix
    obtain ⟨i, p, rfl⟩ := List.exists_cons_of_ne_nil hne
    rw [at?_cons, at?_cons, children_replaceAt_cons, List.getElem?_modify]
    cases n.children[j]? with
    | none => rfl
    | some c =>
      by_cases hij : i = j
      · subst hij
        have hbelow := ih (n := c) fun hp => h (List.cons_prefix_cons.2 ⟨rfl, hp⟩)
        simpa [replacedWithin_cons] using hbelow
      · have hapart : ¬ j :: w <+: i :: p := fun hp => hij (List.cons_prefix_cons.1 hp).1.symm
        simp [hij, replacedWithin_apart hapart]

end Node

end RouteAtlas.Code
