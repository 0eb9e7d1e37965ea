/-
  RouteAtlas: the walk over all nodes of a tree.

  * `IsFirst n p w d`: of the nodes below `n` with the property `p`, the node `d` at the end of `w` is the
    first one in the order of ways;
  * `find?_descendants`: it is the one that a search along the walk finds;
  * `stop_le_start`, `start_le_start`: in a tree in source order, the order of ways is that of the source;
  * `LeadsTo w d v e`: how the node `d` at the end of `w` stands in the source to the node `e` at the end of
    `v`, where it comes first;
  * `walk_in_source_order` joins these: the walk meets every node once, and where the tree is in source
    order it finds first what comes first in the source.
-/
import RouteAtlas.Code.Module
import RouteAtlas.Proofs.Code.Order
import RouteAtlas.Proofs.Code.Ways

namespace RouteAtlas.Code.Node

/-! ## The first node of a search -/

/-- The first one, in the order of ways, of the nodes below a node that have a property. -/
structure IsFirst (n : Node) (p : Node → Bool) (w : Way) (d : Node) : Prop where
  below : w ≠ []
  found : n.at? w = some d
  holds : p d = true
  first : ∀ v e, v ≠ [] → n.at? v = some e → p e = true → w ≤ v

/-- In the source, the node `d` comes before the node `e`: it starts no later, does not stand inside it,
    and has it inside if both start together, unless there is no text that `d` was read from. -/
structure LeadsTo (w : Way) (d : Node) (v : Way) (e : Node) : Prop where
  start_le : d.start ≤ e.start
  outermost : v <+: w → v = w
  around : e.start = d.start → d.start < d.stop → w <+: v

variable {d e n : Node} {p : Node → Bool} {v w : Way}

theorem IsFirst.unique (h : IsFirst n p w d) (h' : IsFirst n p v e) : w = v :=
  le_antisymm (h.first v e h'.below h'.found h'.holds) (h'.first w d h.below h.found h.holds)

/-- The walk lists the nodes below a node in the order of the ways to them. -/
theorem descendants_eq_placedBelow (n : Node) : n.descendants = n.placedBelow.map Prod.snd := by
  rw [descendants_eq_inner, map_placedBelow]

/-- In a list in the order of ways, what a search finds stands in front of all else that it could find. -/
theorem InWayOrder.le_of_find? {places : List (Way × Node)} {q : Way × Node → Bool} {a b : Way × Node}
    (h : InWayOrder places) (ha : places.find? q = some a) (hb : b ∈ places) (hq : q b = true) :
    a.1 ≤ b.1 := by
  obtain ⟨-, front, back, rfl, hfront⟩ := List.find?_eq_some_iff_append.1 ha
  rcases List.mem_append.1 hb with hb | hb
  · have hnot := hfront b hb
    simp [hq] at hnot
  · rcases List.mem_cons.1 hb with rfl | hb
    · exact le_refl _
    · have hback := (List.pairwise_cons.1 (List.pairwise_append.1 h).2.1).1
      exact le_of_lt (hback b hb)

/-- **A search along the walk finds the first node with the property.** -/
theorem find?_descendants : n.descendants.find? p = some d ↔ ∃ w, IsFirst n p w d := by
  rw [descendants_eq_placedBelow, List.find?_map, Option.map_eq_some_iff]
  have hfirst : ∀ {a : Way × Node}, n.placedBelow.find? (p ∘ Prod.snd) = some a →
      IsFirst n p a.1 a.2 := by
    intro a ha
    obtain ⟨hbelow, hfound⟩ := mem_placedBelow_iff.1 (List.mem_of_find?_eq_some ha)
    have hholds : (p ∘ Prod.snd) a = true := List.find?_some ha
    refine ⟨hbelow, hfound, hholds, fun v e hv he hpe => ?_⟩
    exact (pairwise_placedBelow n).le_of_find? ha (mem_placedBelow_iff.2 ⟨hv, he⟩) hpe
  constructor
  · rintro ⟨a, ha, rfl⟩
    exact ⟨a.1, hfirst ha⟩
  · rintro ⟨w, h⟩
    have hsome : (n.placedBelow.find? (p ∘ Prod.snd)).isSome = true :=
      List.find?_isSome.2 ⟨(w, d), mem_placedBelow_iff.2 ⟨h.below, h.found⟩, h.holds⟩
    obtain ⟨a, ha⟩ := Option.isSome_iff_exists.1 hsome
    have hfound := (hfirst ha).found
    rw [(hfirst ha).unique h, h.found] at hfound
    exact ⟨a, ha, (Option.some.inj hfound).symm⟩

/-! ## The order of the source -/

/-- Of two ways that part, the node at the end of the smaller one stops before the other one starts. -/
theorem stop_le_start : ∀ {w v : Way} {n : Node}, n.InOrder → n.at? w = some d → n.at? v = some e →
    w < v → ¬ w <+: v → d.stop ≤ e.start
  | [], _, _, _, _, _, _, hpart => absurd List.nil_prefix hpart
  | _ :: _, [], _, _, _, _, hlt, _ => absurd hlt (List.not_lt_nil _)
  | i :: w, j :: v, n, horder, hd, he, hlt, hpart => by
    obtain ⟨c, hc, hdc⟩ := at?_cons_eq_some_iff.1 hd
    obtain ⟨c', hc', hec⟩ := at?_cons_eq_some_iff.1 he
    have hin := horder.child (List.mem_of_getElem? hc)
    have hin' := horder.child (List.mem_of_getElem? hc')
    rcases List.cons_lt_cons_iff.1 hlt with hij | ⟨rfl, hbelow⟩
    · obtain ⟨hi, rfl⟩ := List.getElem?_eq_some_iff.1 hc
      obtain ⟨hj, rfl⟩ := List.getElem?_eq_some_iff.1 hc'
      have hapart := List.pairwise_iff_getElem.1 horder.ordered.apart i j hi hj hij
      have hstop := (within_of_mem_preorder hin (mem_preorder_of_at? hdc)).2.2
      have hstart := (within_of_mem_preorder hin' (mem_preorder_of_at? hec)).1
      omega
    · rw [hc] at hc'
      cases hc'
      exact stop_le_start hin hdc hec hbelow fun h => hpart (List.cons_prefix_cons.2 ⟨rfl, h⟩)

/-- A node starts no later than those at the ends of greater ways. -/
theorem start_le_start (h : n.InOrder) (hd : n.at? w = some d) (he : n.at? v = some e) (hle : w ≤ v) :
    d.start ≤ e.start := by
  have hin : d.InOrder := h.below (mem_preorder_of_at? hd)
  by_cases hpart : w <+: v
  · obtain ⟨u, rfl⟩ := hpart
    rw [at?_append, hd, Option.bind_some] at he
    exact (within_of_mem_preorder hin (mem_preorder_of_at? he)).1
  · have hlt : w < v := lt_of_le_of_ne hle fun hwv => hpart (hwv ▸ List.prefix_refl w)
    exact Nat.le_trans hin.ordered.start_le_stop (stop_le_start h hd he hlt hpart)

/-- **The first node in the order of ways is the first one in the source.** -/
theorem IsFirst.leadsTo (h : IsFirst n p w d) (horder : n.InOrder) (hv : v ≠ [])
    (he : n.at? v = some e) (hp : p e = true) : LeadsTo w d v e := by
  have hle : w ≤ v := h.first v e hv he hp
  refine ⟨start_le_start horder h.found he hle, fun hprefix => ?_, fun hstart hread => ?_⟩
  · exact le_antisymm (le_of_prefixed hprefix) hle
  · by_contra hpart
    have hlt : w < v := lt_of_le_of_ne hle fun hwv => hpart (hwv ▸ List.prefix_refl w)
    have hstop := stop_le_start horder h.found he hlt hpart
    omega

/-- **The walk with a stack visits every node below a node once**, in the order of the recursive walk: the
    ways to the nodes grow along it, and each way that leads below the node is that of one of them.  A
    search finds the first node with a property, in the order of ways.  Where the tree is in source order,
    nodes are met in the order in which they start, and what is found first comes first in the source:
    it starts no later than any other node with the property and stands inside none of them, and of those
    that start together with it, it has all inside. -/
theorem walk_in_source_order (n : Node) :
    n.descendants = n.inner ∧
    n.descendants = n.placedBelow.map Prod.snd ∧ InWayOrder n.placedBelow ∧
    (∀ w d, (w, d) ∈ n.placedBelow ↔ w ≠ [] ∧ n.at? w = some d) ∧
    (∀ p d, n.descendants.find? p = some d ↔ ∃ w, IsFirst n p w d) ∧
    (n.InOrder →
      n.descendants.Pairwise (fun d e => d.start ≤ e.start) ∧
      ∀ p w d, IsFirst n p w d → ∀ v e, v ≠ [] → n.at? v = some e → p e = true → LeadsTo w d v e) := by
  refine ⟨descendants_eq_inner n, descendants_eq_placedBelow n, pairwise_placedBelow n,
    fun w d => mem_placedBelow_iff, fun p d => find?_descendants, fun h => ⟨?_, ?_⟩⟩
  · rw [descendants_eq_inner]
    exact pairwise_inner h
  · exact fun p w d hfirst v e hv he hp => hfirst.leadsTo h hv he hp

/-- Whether a node is a call. -/
def isCall (n : Node) : Bool :=
  n.kind == .call

/-- Two calls that start together: the outer one is found first, and has the other one inside. -/
theorem walk_in_source_order_calls :
    ∃ root ∈ (readModule .plain "f(1)(2)").toOption,
      root.descendants.Pairwise (fun d e => d.start ≤ e.start) ∧
      ∃ outer, root.descendants.find? isCall = some outer ∧ outer.text = "f(1)(2)" ∧
        ∃ w, IsFirst root isCall w outer ∧ ∃ v call, root.at? v = some call ∧ call.text = "f(1)" ∧
          call.start = outer.start ∧ LeadsTo w outer v call := by
  obtain ⟨root, hroot, horder, outer, houter, htext, call, hmem, hcall, hname, hstart⟩ :
      ∃ root ∈ (readModule .plain "f(1)(2)").toOption, root.InOrder ∧
        ∃ outer ∈ root.placedBelow.find? (isCall ∘ Prod.snd), outer.2.text = "f(1)(2)" ∧
          ∃ call ∈ root.placedBelow,
            isCall call.2 = true ∧ call.2.text = "f(1)" ∧ call.2.start = outer.2.start := by
    decide +kernel
  obtain ⟨-, hlisted, -, hplaced, hfind, hsource⟩ := walk_in_source_order root
  have hfound : root.descendants.find? isCall = some outer.2 := by
    rw [hlisted, List.find?_map, Option.mem_def.1 houter]
    rfl
  obtain ⟨w, hfirst⟩ := (hfind isCall outer.2).1 hfound
  obtain ⟨hbelow, hat⟩ := (hplaced call.1 call.2).1 hmem
  exact ⟨root, hroot, (hsource horder).1, outer.2, hfound, htext, w, hfirst, call.1, call.2, hat, hname,
    hstart, (hsource horder).2 isCall w outer.2 hfirst call.1 call.2 hbelow hat hcall⟩

end RouteAtlas.Code.Node
