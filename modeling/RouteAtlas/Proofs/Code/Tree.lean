/-
  RouteAtlas: nodes inside nodes.

  * `Node.preorder` has a node and all nodes below it: it is closed under children, fields, unwrapping
    and return statements;
  * `Node.height` is the length of the longest path downwards; it falls with every step down.
-/
import RouteAtlas.Code.Walk

namespace RouteAtlas.Code.Node

/-! ## Nodes below a node -/

theorem mem_preorders {k : Node} : ∀ {ns : List Node}, k ∈ preorders ns ↔ ∃ n ∈ ns, k ∈ n.preorder
  | [] => by simp [preorders]
  | n :: ns => by simp [preorders, @mem_preorders k ns]

theorem mem_preorder_iff {k n : Node} :
    k ∈ n.preorder ↔ k = n ∨ ∃ c ∈ n.children, k ∈ c.preorder := by
  rw [preorder_eq, List.mem_cons, inner, mem_preorders]

theorem mem_preorder_self (n : Node) : n ∈ n.preorder :=
  mem_preorder_iff.2 (Or.inl rfl)

theorem mem_preorder_of_mem_children {c n : Node} (h : c ∈ n.children) : c ∈ n.preorder :=
  mem_preorder_iff.2 (Or.inr ⟨c, h, mem_preorder_self c⟩)

theorem mem_preorder_trans {a b : Node} (hab : a ∈ b.preorder) :
    ∀ {c : Node}, b ∈ c.preorder → a ∈ c.preorder
  | c, hbc => by
    rcases mem_preorder_iff.1 hbc with rfl | ⟨d, hd, hbd⟩
    · exact hab
    · have := size_lt_of_mem hd
      exact mem_preorder_iff.2 (Or.inr ⟨d, hd, mem_preorder_trans hab hbd⟩)
termination_by c => c.size

theorem child_mem_preorder {c n root : Node} (hn : n ∈ root.preorder) (h : c ∈ n.children) :
    c ∈ root.preorder :=
  mem_preorder_trans (mem_preorder_of_mem_children h) hn

theorem mem_preorder_of_mem_descendants {d n : Node} (h : d ∈ n.descendants) : d ∈ n.preorder := by
  rw [descendants_eq_inner] at h
  rw [preorder_eq]
  exact List.mem_cons_of_mem n h

/-! ## Wrappers -/

theorem unwrap_of_not_isWrapper {n : Node} (h : n.kind.isWrapper = false) : n.unwrap = n := by
  rw [unwrap]; simp [h]

theorem unwrap_of_head {n e : Node} (hw : n.kind.isWrapper = true) (he : n.named.head? = some e) :
    n.unwrap = e.unwrap := by
  rw [unwrap, if_pos hw]
  split
  · rename_i h; simp [h] at he
  · rename_i c cs h; simp only [h, List.head?_cons, Option.some.injEq] at he; rw [he]

theorem unwrap_mem_preorder (n : Node) : n.unwrap ∈ n.preorder := by
  induction n using unwrap.induct with
  | case1 n hw hnil => rw [unwrap, if_pos hw, hnil]; exact mem_preorder_self n
  | case2 n hw c cs hn ih =>
    have hc : c ∈ n.children := mem_children_of_mem_named (by simp [hn])
    have hhead : n.named.head? = some c := by simp [hn]
    rw [unwrap_of_head hw hhead]
    exact mem_preorder_trans ih (mem_preorder_of_mem_children hc)
  | case3 n hw =>
    rw [unwrap_of_not_isWrapper (by simpa using hw)]
    exact mem_preorder_self n

/-! ## Return statements -/

theorem mem_visitReturns {s : Node} (found stack : List Node) :
    s ∈ visitReturns found stack → s ∈ found ∨ ∃ n ∈ stack, s ∈ n.preorder := by
  induction found, stack using visitReturns.induct with
  | case1 found => rw [visitReturns]; exact fun h => Or.inl (List.mem_reverse.1 h)
  | case2 found n rest ih =>
    rw [visitReturns]
    intro h
    rcases ih h with hfound | ⟨m, hm, hs⟩
    · split at hfound
      · rcases List.mem_cons.1 hfound with rfl | hfound
        · exact Or.inr ⟨s, by simp, mem_preorder_self s⟩
        · exact Or.inl hfound
      · exact Or.inl hfound
    · rcases List.mem_append.1 hm with hm | hm
      · exact Or.inr ⟨n, by simp, mem_preorder_iff.2 (Or.inr ⟨m, (List.mem_filter.1 hm).1, hs⟩)⟩
      · exact Or.inr ⟨m, by simp [hm], hs⟩

theorem mem_ownReturns {s f : Node} (h : s ∈ f.ownReturns) :
    ∃ body, f.field? .body = some body ∧ s ∈ body.preorder := by
  unfold ownReturns at h
  cases hb : f.field? .body with
  | none => rw [hb] at h; cases h
  | some body =>
    rw [hb] at h
    rcases mem_visitReturns [] [body] h with h | ⟨n, hn, hs⟩
    · cases h
    · rw [List.mem_singleton.1 hn] at hs; exact ⟨body, rfl, hs⟩

/-! ## Height -/

mutual
/-- The number of nodes on the longest path down from a node. -/
def height : Node → Nat
  | mk _ _ _ _ children => heights children + 1
/-- The greatest height of several trees. -/
def heights : List Node → Nat
  | [] => 0
  | n :: ns => max (height n) (heights ns)
end

theorem height_eq (n : Node) : n.height = heights n.children + 1 := by
  cases n; simp [height, children]

theorem height_le_heights {n : Node} : ∀ {ns : List Node}, n ∈ ns → n.height ≤ heights ns
  | m :: ms, h => by
    rcases List.mem_cons.1 h with rfl | h
    · exact Nat.le_max_left ..
    · exact Nat.le_trans (height_le_heights h) (Nat.le_max_right ..)

theorem height_lt_of_mem {c n : Node} (h : c ∈ n.children) : c.height < n.height := by
  rw [height_eq n]
  exact Nat.lt_succ_of_le (height_le_heights h)

theorem height_pos (n : Node) : 0 < n.height := by
  rw [height_eq]; exact Nat.succ_pos _

/-- A node is no higher than the nodes it is in. -/
theorem height_le_of_mem_preorder {a : Node} : ∀ {n : Node}, a ∈ n.preorder → a.height ≤ n.height
  | n, h => by
    rcases mem_preorder_iff.1 h with rfl | ⟨c, hc, hac⟩
    · exact Nat.le_refl _
    · have := size_lt_of_mem hc
      exact Nat.le_trans (height_le_of_mem_preorder hac) (Nat.le_of_lt (height_lt_of_mem hc))
termination_by n => n.size

theorem height_unwrap_le (n : Node) : n.unwrap.height ≤ n.height :=
  height_le_of_mem_preorder (unwrap_mem_preorder n)

/-- What a function returns is lower than the function. -/
theorem height_lt_of_mem_ownReturns {e s f : Node} (hs : s ∈ f.ownReturns) (he : e ∈ s.children) :
    e.height < f.height := by
  obtain ⟨body, hb, hsb⟩ := mem_ownReturns hs
  calc e.height < s.height := height_lt_of_mem he
    _ ≤ body.height := height_le_of_mem_preorder hsb
    _ < f.height := height_lt_of_mem (mem_children_of_field? hb)

theorem ownReturns_mem_preorder {s f root : Node} (hf : f ∈ root.preorder) (hs : s ∈ f.ownReturns) :
    s ∈ root.preorder := by
  obtain ⟨body, hb, hsb⟩ := mem_ownReturns hs
  exact mem_preorder_trans hsb (child_mem_preorder hf (mem_children_of_field? hb))

/-! ## Roles -/

theorem kind_withRole (n : Node) (role : Role) : (n.withRole role).kind = n.kind := by
  cases n
  rfl

theorem role_withRole (n : Node) (role : Role) : (n.withRole role).role = some role := by
  cases n
  rfl

theorem children_withRole (n : Node) (role : Role) : (n.withRole role).children = n.children := by
  cases n
  rfl

/-! ## Trees without a source -/

/-- A node that was read from no text: it has no place in a source. -/
def planted (kind : Kind) (role : Option Role) (text : String) (children : List Node) : Node :=
  mk kind role default text children

end RouteAtlas.Code.Node
