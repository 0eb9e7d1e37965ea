/-
  RouteAtlas: trees in source order.

  * `InOrder n`: in the tree of `n`, nodes stand inside their parents and behind the siblings before them;
  * `within_of_mem_preorder`: all nodes of a tree in order stand inside its root;
  * `pairwise_preorder`, `pairwise_descendantsOf`: the walk over a tree in order meets nodes in the order in
    which they start.
-/
import RouteAtlas.Proofs.Code.Tree

namespace RouteAtlas.Code.Node

/-- Where a node starts, in characters. -/
def start (n : Node) : Nat :=
  n.span.start.offset

/-- Where a node stops. -/
def stop (n : Node) : Nat :=
  n.span.stop.offset

/-- The children of a node stand inside it, one behind the other. -/
structure Ordered (n : Node) : Prop where
  start_le_stop : n.start ≤ n.stop
  inside : ∀ c ∈ n.children, n.start ≤ c.start ∧ c.stop ≤ n.stop
  apart : n.children.Pairwise fun c d => c.stop ≤ d.start

/-- The children of all nodes of a tree are in source order. -/
def InOrder (n : Node) : Prop :=
  ∀ k ∈ n.preorder, k.Ordered

variable {c d n : Node} {ns : List Node}

instance (n : Node) : Decidable n.Ordered :=
  decidable_of_iff (n.start ≤ n.stop ∧ (∀ c ∈ n.children, n.start ≤ c.start ∧ c.stop ≤ n.stop) ∧
    n.children.Pairwise fun c d => c.stop ≤ d.start)
    ⟨fun h => ⟨h.1, h.2.1, h.2.2⟩, fun h => ⟨h.1, h.2, h.3⟩⟩

instance (n : Node) : Decidable n.InOrder :=
  inferInstanceAs (Decidable (∀ k ∈ n.preorder, k.Ordered))

theorem InOrder.ordered (h : n.InOrder) : n.Ordered :=
  h n (mem_preorder_self n)

theorem InOrder.below (h : n.InOrder) (hd : d ∈ n.preorder) : d.InOrder := fun k hk =>
  h k (mem_preorder_trans hk hd)

theorem InOrder.child (h : n.InOrder) (hc : c ∈ n.children) : c.InOrder :=
  h.below (mem_preorder_of_mem_children hc)

/-- All nodes of a tree in order stand inside its root. -/
theorem within_of_mem_preorder : ∀ {n : Node}, n.InOrder → d ∈ n.preorder →
    n.start ≤ d.start ∧ d.start ≤ n.stop ∧ d.stop ≤ n.stop
  | n, h, hd => by
    rcases mem_preorder_iff.1 hd with rfl | ⟨c, hc, hdc⟩
    · exact ⟨Nat.le_refl _, h.ordered.start_le_stop, Nat.le_refl _⟩
    · have := size_lt_of_mem hc
      obtain ⟨hstart, hstop⟩ := h.ordered.inside c hc
      obtain ⟨hbelow, hbefore, hend⟩ := within_of_mem_preorder (h.child hc) hdc
      omega
termination_by n => n.size

/-- The nodes of trees that stand one behind the other start in their order, if those of each tree do. -/
theorem pairwise_preorders (hns : ∀ c ∈ ns, c.InOrder) (hapart : ns.Pairwise fun c d => c.stop ≤ d.start)
    (heach : ∀ c ∈ ns, c.preorder.Pairwise fun a b => a.start ≤ b.start) :
    (preorders ns).Pairwise fun a b => a.start ≤ b.start := by
  induction ns with
  | nil => exact .nil
  | cons n ns ih =>
    obtain ⟨hn, hns⟩ := List.forall_mem_cons.1 hns
    obtain ⟨hbehind, hapart⟩ := List.pairwise_cons.1 hapart
    obtain ⟨hfirst, heach⟩ := List.forall_mem_cons.1 heach
    refine List.pairwise_append.2 ⟨hfirst, ih hns hapart heach, fun a ha b hb => ?_⟩
    obtain ⟨c, hc, hbc⟩ := mem_preorders.1 hb
    have hafter := (within_of_mem_preorder hn ha).2.1
    have hstart := (within_of_mem_preorder (hns c hc) hbc).1
    exact Nat.le_trans (Nat.le_trans hafter (hbehind c hc)) hstart

/-- **The walk in source order.**  The nodes of a tree in order are met in the order in which they start. -/
theorem pairwise_preorder : ∀ {n : Node}, n.InOrder →
    n.preorder.Pairwise fun a b => a.start ≤ b.start
  | n, h => by
    rw [preorder_eq]
    refine List.pairwise_cons.2 ⟨fun d hd => ?_, ?_⟩
    · refine (within_of_mem_preorder h ?_).1
      rw [preorder_eq]
      exact List.mem_cons_of_mem n hd
    · exact pairwise_preorders (fun c hc => h.child hc) h.ordered.apart fun c hc =>
        have := size_lt_of_mem hc
        pairwise_preorder (h.child hc)
termination_by n => n.size

theorem pairwise_inner (h : n.InOrder) : n.inner.Pairwise fun a b => a.start ≤ b.start := by
  have hall := pairwise_preorder h
  rw [preorder_eq, List.pairwise_cons] at hall
  exact hall.2

theorem pairwise_descendantsOf (h : n.InOrder) (kind : Kind) :
    (n.descendantsOf kind).Pairwise fun a b => a.start ≤ b.start := by
  rw [descendantsOf, descendants_eq_inner]
  exact (pairwise_inner h).filter _

end RouteAtlas.Code.Node
