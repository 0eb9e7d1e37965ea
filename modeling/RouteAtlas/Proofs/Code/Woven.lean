/-
  RouteAtlas: children with comments among them.

  * `Node.isRemark`: a comment that plays no part in its parent;
  * `Woven R ms ns`: the nodes `ns` are related to the nodes `ms` one after the other, in the same roles,
    and there are remarks among them.

  What is taken from woven nodes is related where it does not come from remarks: all members of a kind
  (`Woven.filter_forall₂`, `Woven.flatMap`), the first one of a kind (`Woven.find?`) and, where no remark
  comes before it, the first one of all (`Woven.head?`).
-/
import Mathlib.Data.List.Forall2
import RouteAtlas.Code.Walk

namespace RouteAtlas.Code

/-- A comment that plays no part in its parent. -/
def Node.isRemark (n : Node) : Bool :=
  n.isComment && n.role.isNone && n.children.isEmpty

/-- The nodes of one list are related to those of another one that has remarks among them; related
    nodes play the same part. -/
inductive Woven (R : Node → Node → Prop) : List Node → List Node → Prop where
  | nil : Woven R [] []
  | cons {m n : Node} {ms ns : List Node} : R m n → m.role = n.role → Woven R ms ns →
      Woven R (m :: ms) (n :: ns)
  | remark {r : Node} {ms ns : List Node} : r.isRemark = true → Woven R ms ns → Woven R ms (r :: ns)

/-- Two options are both missing, or both there and related. -/
theorem rel_cases {β γ : Type} {S : β → γ → Prop} {b : Option β} {c : Option γ}
    (h : Option.Rel S b c) :
    (b = none ∧ c = none) ∨ ∃ x y, b = some x ∧ c = some y ∧ S x y := by
  cases h with
  | none => exact Or.inl ⟨rfl, rfl⟩
  | some hs => exact Or.inr ⟨_, _, rfl, rfl, hs⟩

namespace Node

variable {r : Node}

theorem kind_of_isRemark (h : r.isRemark = true) : r.kind = .comment := by
  simp only [isRemark, isComment, Bool.and_eq_true, beq_iff_eq] at h
  exact h.1.1

theorem role_of_isRemark (h : r.isRemark = true) : r.role = none := by
  simp only [isRemark, Bool.and_eq_true, Option.isNone_iff_eq_none] at h
  exact h.1.2

theorem children_of_isRemark (h : r.isRemark = true) : r.children = [] := by
  simp only [isRemark, Bool.and_eq_true, List.isEmpty_iff] at h
  exact h.2

theorem isComment_of_isRemark (h : r.isRemark = true) : r.isComment = true := by
  simp [isComment, kind_of_isRemark h]

theorem role_of_field? {c n : Node} {role : Role} (h : n.field? role = some c) :
    c.role = some role := by
  simpa using List.find?_some h

end Node

namespace Woven

variable {R : Node → Node → Prop} {ms ns ms' ns' : List Node}

theorem refl (h : ∀ n, R n n) : ∀ ns : List Node, Woven R ns ns
  | [] => .nil
  | n :: ns => .cons (h n) rfl (refl h ns)

theorem imp_mem {S : Node → Node → Prop} (h : Woven R ms ns)
    (himp : ∀ m ∈ ms, ∀ n ∈ ns, R m n → S m n) : Woven S ms ns := by
  induction h with
  | nil => exact .nil
  | cons hr hrole _ ih =>
    exact .cons (himp _ (by simp) _ (by simp) hr) hrole
      (ih fun m hm n hn => himp m (by simp [hm]) n (by simp [hn]))
  | remark hr _ ih => exact .remark hr (ih fun m hm n hn => himp m hm n (by simp [hn]))

theorem append (h : Woven R ms ns) (h' : Woven R ms' ns') : Woven R (ms ++ ms') (ns ++ ns') := by
  induction h with
  | nil => exact h'
  | cons hr hrole _ ih => exact .cons hr hrole ih
  | remark hr _ ih => exact .remark hr ih

theorem reverse (h : Woven R ms ns) : Woven R ms.reverse ns.reverse := by
  induction h with
  | nil => exact .nil
  | cons hr hrole _ ih => simpa using ih.append (.cons hr hrole .nil)
  | remark hr _ ih => simpa using ih.append (.remark hr .nil)

/-! ## Members of a kind -/

theorem filter {p : Node → Bool} (hp : ∀ m n, R m n → p m = p n) (h : Woven R ms ns) :
    Woven R (ms.filter p) (ns.filter p) := by
  induction h with
  | nil => exact .nil
  | @cons m n _ _ hr hrole _ ih =>
    rw [List.filter_cons, List.filter_cons, hp m n hr]
    split
    · exact .cons hr hrole ih
    · exact ih
  | remark hr _ ih =>
    rw [List.filter_cons]
    split
    · exact .remark hr ih
    · exact ih

/-- Of woven nodes those that are no remarks are related one by one. -/
theorem filter_forall₂ {p : Node → Bool} (hp : ∀ m n, R m n → p m = p n)
    (hremark : ∀ r, r.isRemark = true → p r = false) (h : Woven R ms ns) :
    List.Forall₂ R (ms.filter p) (ns.filter p) := by
  induction h with
  | nil => exact .nil
  | @cons m n _ _ hr _ _ ih =>
    rw [List.filter_cons, List.filter_cons, hp m n hr]
    split
    · exact .cons hr ih
    · exact ih
  | @remark r _ _ hr _ ih => simpa [hremark r hr] using ih

theorem flatMap {β γ : Type} {S : β → γ → Prop} {f : Node → List β} {g : Node → List γ}
    (hf : ∀ m n, R m n → List.Forall₂ S (f m) (g n)) (hremark : ∀ r, r.isRemark = true → g r = [])
    (h : Woven R ms ns) : List.Forall₂ S (ms.flatMap f) (ns.flatMap g) := by
  induction h with
  | nil => exact .nil
  | cons hr _ _ ih => exact List.rel_append (hf _ _ hr) ih
  | @remark r _ _ hr _ ih => simpa [hremark r hr] using ih

theorem forall₂_toList {β γ : Type} {S : β → γ → Prop} {b : Option β} {c : Option γ}
    (h : Option.Rel S b c) : List.Forall₂ S b.toList c.toList := by
  cases h with
  | some hs => exact .cons hs .nil
  | none => exact .nil

theorem filterMap {β γ : Type} {S : β → γ → Prop} {f : Node → Option β} {g : Node → Option γ}
    (hf : ∀ m n, R m n → Option.Rel S (f m) (g n)) (hremark : ∀ r, r.isRemark = true → g r = none)
    (h : Woven R ms ns) : List.Forall₂ S (ms.filterMap f) (ns.filterMap g) := by
  rw [List.filterMap_eq_flatMap_toList, List.filterMap_eq_flatMap_toList]
  exact h.flatMap (fun m n hr => forall₂_toList (hf m n hr)) fun r hr => by rw [hremark r hr]; rfl

theorem any {p : Node → Bool} (hp : ∀ m n, R m n → p m = p n)
    (hremark : ∀ r, r.isRemark = true → p r = false) (h : Woven R ms ns) : ms.any p = ns.any p := by
  induction h with
  | nil => rfl
  | @cons m n _ _ hr _ _ ih => rw [List.any_cons, List.any_cons, hp m n hr, ih]
  | @remark r _ _ hr _ ih => rw [List.any_cons, hremark r hr, ih]; rfl

/-! ## Single members -/

theorem find? {p : Node → Bool} (hp : ∀ m n, R m n → m.role = n.role → p m = p n)
    (hremark : ∀ r, r.isRemark = true → p r = false) (h : Woven R ms ns) :
    Option.Rel R (ms.find? p) (ns.find? p) := by
  induction h with
  | nil => exact .none
  | @cons m n _ _ hr hrole _ ih =>
    rw [List.find?_cons, List.find?_cons, hp m n hr hrole]
    split
    · exact .some hr
    · exact ih
  | @remark r _ _ hr _ ih => simpa [List.find?_cons, hremark r hr] using ih

/-- The first of woven nodes are related, unless a remark was put in front of something else. -/
theorem head? (hremarks : ∀ r r', r.isRemark = true → r'.isRemark = true → R r r')
    (h : Woven R ms ns)
    (hfirst : ns.head?.any Node.isRemark = true → ms.head?.any Node.isRemark = true) :
    Option.Rel R ms.head? ns.head? := by
  cases h with
  | nil => exact .none
  | cons hr => exact .some hr
  | @remark r _ ns hr _ =>
    have hm : ms.head?.any Node.isRemark = true := hfirst (by simp [hr])
    cases ms with
    | nil => cases hm
    | cons m ms => exact .some (hremarks m r (by simpa using hm) hr)

theorem getLast? (hremarks : ∀ r r', r.isRemark = true → r'.isRemark = true → R r r')
    (h : Woven R ms ns)
    (hlast : ns.getLast?.any Node.isRemark = true → ms.getLast?.any Node.isRemark = true) :
    Option.Rel R ms.getLast? ns.getLast? := by
  rw [List.getLast?_eq_head?_reverse, List.getLast?_eq_head?_reverse] at hlast ⊢
  exact h.reverse.head? hremarks hlast

/-! ## Walks -/

/-- The nodes of woven trees are woven where those of related trees are. -/
theorem preorders (h : Woven R ms ns)
    (htrees : ∀ m ∈ ms, ∀ n ∈ ns, R m n → m.role = n.role → Woven R m.preorder n.preorder) :
    Woven R (Node.preorders ms) (Node.preorders ns) := by
  induction h with
  | nil => exact .nil
  | cons hr hrole _ ih =>
    rw [Node.preorders, Node.preorders]
    exact (htrees _ (by simp) _ (by simp) hr hrole).append
      (ih fun m hm n hn => htrees m (by simp [hm]) n (by simp [hn]))
  | @remark r ms ns hr _ ih =>
    rw [Node.preorders, Node.preorder_eq, Node.inner, Node.children_of_isRemark hr]
    exact .remark hr (ih fun m hm n hn => htrees m hm n (by simp [hn]))

end Woven

end RouteAtlas.Code
