/-
  RouteAtlas: the return statements of a function itself.

  A function and a class body hide the return statements inside them from the function around them.

  * `OpenWay n w`: nothing on the way `w` down from `n` hides return statements;
  * `openReturns n` are the return statements below `n` at the ends of open ways, out of the list of all
    nodes (`placed`); `visitReturns_eq` says that the walk with a stack collects them;
  * `InNested n p new`: the way `p` leads into a function or to a class body, and `new` can stand there;
  * `openReturns_replaceAt`: other nodes in there leave the same return statements in the same places;
  * `own_returns` joins these.
-/
import RouteAtlas.Code.Module
import RouteAtlas.Proofs.Code.Order
import RouteAtlas.Proofs.Code.Ways

namespace RouteAtlas.Code.Node

/-! ## Open ways -/

/-- No node on a way hides return statements; the node that the way starts from is left aside. -/
def OpenWay (n : Node) (w : Way) : Prop :=
  ∀ v m, v ≠ [] → v <+: w → n.at? v = some m → m.hidesReturns = false

/-- Whether nothing on a way hides return statements, read off on the way down. -/
def isOpen : Node → Way → Bool
  | _, [] => true
  | n, i :: w => n.children[i]?.any fun c => !c.hidesReturns && c.isOpen w

/-- The return statements at the ends of open ways, with these. -/
def openReturns (n : Node) : List (Way × Node) :=
  n.placed.filter fun e => e.2.kind == .returnStatement && n.isOpen e.1

variable {body c d f f' m n new s : Node} {i : Nat} {p q v w : Way}

theorem isOpen_cons (hc : n.children[i]? = some c) :
    n.isOpen (i :: w) = (!c.hidesReturns && c.isOpen w) := by
  rw [isOpen, hc, Option.any_some]

theorem openWay_cons_iff (hc : n.children[i]? = some c) :
    OpenWay n (i :: w) ↔ c.hidesReturns = false ∧ OpenWay c w := by
  constructor
  · intro h
    refine ⟨h [i] c (List.cons_ne_nil _ _) (by simp) (at?_cons_eq_some_iff.2 ⟨c, hc, rfl⟩), ?_⟩
    intro v m _ hv hm
    exact h (i :: v) m (List.cons_ne_nil _ _) (List.cons_prefix_cons.2 ⟨rfl, hv⟩)
      (at?_cons_eq_some_iff.2 ⟨c, hc, hm⟩)
  · rintro ⟨hhides, h⟩ v m hne hv hm
    obtain ⟨j, v, rfl⟩ := List.exists_cons_of_ne_nil hne
    obtain ⟨rfl, hbelow⟩ := List.cons_prefix_cons.1 hv
    obtain ⟨c', hc', hm⟩ := at?_cons_eq_some_iff.1 hm
    rw [hc] at hc'
    cases hc'
    cases v with
    | nil =>
      cases hm
      exact hhides
    | cons k v => exact h (k :: v) m (List.cons_ne_nil _ _) hbelow hm

theorem isOpen_iff (h : n.at? w = some d) : n.isOpen w = true ↔ OpenWay n w := by
  induction w generalizing n with
  | nil => exact iff_of_true rfl fun v m hne hv _ => absurd (List.prefix_nil.1 hv) hne
  | cons i w ih =>
    obtain ⟨c, hc, hd⟩ := at?_cons_eq_some_iff.1 h
    rw [isOpen_cons hc, openWay_cons_iff hc, Bool.and_eq_true, ih hd, Bool.not_eq_true']

theorem mem_openReturns_iff :
    (w, s) ∈ n.openReturns ↔ n.at? w = some s ∧ s.kind = .returnStatement ∧ OpenWay n w := by
  rw [openReturns, List.mem_filter, mem_placed_iff]
  refine and_congr_right fun h => ?_
  rw [Bool.and_eq_true, isOpen_iff h, beq_iff_eq]

theorem pairwise_openReturns (n : Node) : InWayOrder n.openReturns :=
  (pairwise_placed n).filter _

/-! ## The walk -/

/-- The open return statements below a node are those of the children that hide none; the children from
    the number `i` on are `ns`. -/
theorem map_openReturnsFrom (n : Node) : ∀ (i : Nat) (ns : List Node),
    (∀ j c, ns[j]? = some c → n.children[i + j]? = some c) →
      ((placedFrom i ns).filter fun e => e.2.kind == .returnStatement && n.isOpen e.1).map Prod.snd =
        (ns.filter fun c => !c.hidesReturns).flatMap fun c => c.openReturns.map Prod.snd
  | _, [], _ => rfl
  | i, c :: ns, hns => by
    have hc : n.children[i]? = some c := hns 0 c rfl
    have hrest := map_openReturnsFrom n (i + 1) ns fun j d hd => by
      have hchild := hns (j + 1) d hd
      rwa [Nat.add_comm j, ← Nat.add_assoc] at hchild
    rw [placedFrom, List.filter_append, List.map_append, hrest, List.filter_map, List.map_map,
      List.filter_cons]
    cases hhides : c.hidesReturns <;>
      simp [openReturns, isOpen_cons hc, hhides, Function.comp_def]

/-- The open return statements of a node: itself, and those of its children that hide none. -/
theorem map_openReturns (n : Node) : n.openReturns.map Prod.snd =
    (if n.kind == .returnStatement then [n] else []) ++
      (n.children.filter fun c => !c.hidesReturns).flatMap fun c => c.openReturns.map Prod.snd := by
  have hchildren := map_openReturnsFrom n 0 n.children fun j c hc => by rwa [Nat.zero_add]
  rw [← hchildren, openReturns, placed_eq, placedBelow, List.filter_cons]
  cases hkind : n.kind == .returnStatement <;> simp [isOpen]

/-- **The walk with a stack collects the open return statements of the trees on it.** -/
theorem visitReturns_eq (found stack : List Node) : visitReturns found stack =
    found.reverse ++ stack.flatMap fun n => n.openReturns.map Prod.snd := by
  induction found, stack using visitReturns.induct with
  | case1 found => simp [visitReturns]
  | case2 found n rest ih =>
    rw [dite_eq_ite] at ih
    rw [visitReturns, ih, List.flatMap_append, List.flatMap_cons, map_openReturns n]
    split <;> simp

theorem ownReturns_eq (hbody : f.field? .body = some body) :
    f.ownReturns = body.openReturns.map Prod.snd := by
  rw [ownReturns, hbody]
  show visitReturns [] [body] = _
  rw [visitReturns_eq]
  simp

/-! ## Other functions and classes inside -/

/-- A way leads into a function below a node, or to the body of a class, where another one can stand. -/
inductive InNested (n : Node) (p : Way) (new : Node) : Prop where
  | function {g : Node} {q r : Way} : n.at? q = some g → g.kind.isFunction = true → r ≠ [] →
      p = q ++ r → InNested n p new
  | classBody {b : Node} : n.at? p = some b → b.kind = .classBody → new.kind = .classBody →
      InNested n p new

theorem hidesReturns_eq (h : m.kind = n.kind) : m.hidesReturns = n.hidesReturns := by
  rw [hidesReturns, hidesReturns, h]

theorem hidesReturns_of_isFunction (h : n.kind.isFunction = true) : n.hidesReturns = true := by
  rw [hidesReturns, h, Bool.true_or]

theorem hidesReturns_of_classBody (h : n.kind = .classBody) : n.hidesReturns = true := by
  simp [hidesReturns, h]

/-- A node that is found outside the one that is put into a tree is of the same kind as before. -/
theorem kind_replacedWithin (h : ¬ p <+: w) (d : Node) : (replacedWithin p new w d).kind = d.kind := by
  unfold replacedWithin
  split
  · rename_i hw
    refine kind_replaceAt d new fun hnil => h ?_
    have hwp : w = p := hw.eq_of_length_le (List.drop_eq_nil_iff.1 hnil)
    exact hwp ▸ List.prefix_refl w
  · rfl

/-- Ways outside the node that is put into a tree stay open, or closed. -/
theorem openWay_replaceAt (h : ¬ p <+: w) : OpenWay (n.replaceAt p new) w ↔ OpenWay n w := by
  have hfound : ∀ v, v <+: w → (n.replaceAt p new).at? v = (n.at? v).map (replacedWithin p new v) ∧
      ∀ m, (replacedWithin p new v m).hidesReturns = m.hidesReturns := by
    intro v hv
    have hnot : ¬ p <+: v := fun hp => h (hp.trans hv)
    exact ⟨at?_replaceAt hnot, fun m => hidesReturns_eq (kind_replacedWithin hnot m)⟩
  constructor
  · intro hopen v m hne hv hm
    obtain ⟨hat, hhides⟩ := hfound v hv
    rw [← hhides m]
    exact hopen v _ hne hv (by rw [hat, hm, Option.map_some])
  · intro hopen v m hne hv hm
    obtain ⟨hat, hhides⟩ := hfound v hv
    rw [hat] at hm
    obtain ⟨k, hk, rfl⟩ := Option.map_eq_some_iff.1 hm
    rw [hhides k]
    exact hopen v k hne hv hk

/-- What is nested in a node is hidden from it, before and after another node is put there. -/
theorem InNested.hidden (h : InNested n p new) (hn : n.hidesReturns = false) (hw : p <+: w) :
    ¬ OpenWay n w ∧ ¬ OpenWay (n.replaceAt p new) w := by
  have hroot : ∀ {q g}, n.at? q = some g → g.hidesReturns = true → q ≠ [] := by
    rintro q g hg hhides rfl
    cases hg
    rw [hn] at hhides
    cases hhides
  cases h with
  | @function g q r hg hfunction hr hp =>
    have hhides := hidesReturns_of_isFunction hfunction
    have hq : q <+: w := (List.prefix_append q r).trans (hp ▸ hw)
    have hnot : ¬ p <+: q := by
      intro hpq
      have hlength := hpq.length_le
      rw [hp, List.length_append] at hlength
      exact hr (List.length_eq_zero_iff.1 (by omega))
    have hclosed : ¬ OpenWay n q := fun hopen => by
      have := hopen q g (hroot hg hhides) (List.prefix_refl q) hg
      rw [hhides] at this
      cases this
    have hrest : ∀ {n : Node}, OpenWay n w → OpenWay n q := fun hopen v m hne hv =>
      hopen v m hne (hv.trans hq)
    exact ⟨fun hopen => hclosed (hrest hopen),
      fun hopen => hclosed ((openWay_replaceAt hnot).1 (hrest hopen))⟩
  | @classBody b hb hold hnew =>
    have hne := hroot hb (hidesReturns_of_classBody hold)
    refine ⟨fun hopen => ?_, fun hopen => ?_⟩
    · have hnot := hopen p b hne hw hb
      rw [hidesReturns_of_classBody hold] at hnot
      cases hnot
    · have hnot := hopen p new hne hw (at?_replaceAt_self hb)
      rw [hidesReturns_of_classBody hnew] at hnot
      cases hnot

/-- **Other nodes in functions and classes below leave the open return statements in their places**; only
    those that have the other node inside have another one inside. -/
theorem openReturns_replaceAt (h : InNested n p new) (hn : n.hidesReturns = false) :
    (n.replaceAt p new).openReturns = n.openReturns.map fun e => (e.1, replacedWithin p new e.1 e.2) := by
  refine (pairwise_openReturns _).ext (List.pairwise_map.2 (pairwise_openReturns n)) fun w s => ?_
  rw [mem_openReturns_iff, List.mem_map]
  by_cases hw : p <+: w
  · obtain ⟨hclosed, hclosed'⟩ := h.hidden hn hw
    refine iff_of_false (fun hs => hclosed' hs.2.2) ?_
    rintro ⟨⟨v, t⟩, ht, he⟩
    cases he
    exact hclosed (mem_openReturns_iff.1 ht).2.2
  · rw [at?_replaceAt hw, openWay_replaceAt hw]
    constructor
    · rintro ⟨hs, hkind, hopen⟩
      obtain ⟨t, ht, rfl⟩ := Option.map_eq_some_iff.1 hs
      rw [kind_replacedWithin hw] at hkind
      exact ⟨(w, t), mem_openReturns_iff.2 ⟨ht, hkind, hopen⟩, rfl⟩
    · rintro ⟨⟨v, t⟩, ht, he⟩
      cases he
      obtain ⟨hat, hkind, hopen⟩ := mem_openReturns_iff.1 ht
      exact ⟨by rw [hat, Option.map_some], by rwa [kind_replacedWithin hw], hopen⟩

/-! ## The return statements of a function -/

/-- In a block, the ends of open ways are told apart by all nodes on the way, the block among them. -/
theorem mem_openReturns_block_iff (hblock : n.kind = .block) : (w, s) ∈ n.openReturns ↔
    w ≠ [] ∧ n.at? w = some s ∧ s.kind = .returnStatement ∧
      ∀ v m, v <+: w → n.at? v = some m → m.kind.isFunction = false ∧ m.kind ≠ .classBody := by
  have hhides : ∀ m : Node, m.hidesReturns = false ↔ m.kind.isFunction = false ∧ m.kind ≠ .classBody :=
    fun m => by simp [hidesReturns]
  rw [mem_openReturns_iff]
  constructor
  · rintro ⟨hs, hkind, hopen⟩
    refine ⟨?_, hs, hkind, fun v m hv hm => ?_⟩
    · rintro rfl
      cases hs
      rw [hblock] at hkind
      cases hkind
    · by_cases hne : v = []
      · subst hne
        cases hm
        rw [hblock]
        decide
      · exact (hhides m).1 (hopen v m hne hv hm)
  · rintro ⟨-, hs, hkind, hopen⟩
    exact ⟨hs, hkind, fun v m _ hv hm => (hhides m).2 (hopen v m hv hm)⟩

/-- **The return statements of a function are its own.**  Of a function whose body is a block, the walk
    collects the return statements below the block that have no function and no class body on the way, each
    place once and in the order of the places.  If the tree is in source order, so are they, and sorting
    them by where they start changes nothing.  Another node in a function or in place of a class body below
    the block leaves them where they are, and only those that have the other node inside have it inside. -/
theorem own_returns (hbody : f.field? .body = some body) (hblock : body.kind = .block) :
    f.ownReturns = body.openReturns.map Prod.snd ∧ InWayOrder body.openReturns ∧
    (∀ w s, (w, s) ∈ body.openReturns ↔ w ≠ [] ∧ body.at? w = some s ∧ s.kind = .returnStatement ∧
      ∀ v m, v <+: w → body.at? v = some m → m.kind.isFunction = false ∧ m.kind ≠ .classBody) ∧
    (body.InOrder → f.ownReturns.Pairwise (fun s t => s.start ≤ t.start) ∧
      f.ownReturns.mergeSort (fun s t => decide (s.start ≤ t.start)) = f.ownReturns) ∧
    ∀ p new, InNested body p new →
      (body.replaceAt p new).openReturns =
        body.openReturns.map (fun e => (e.1, replacedWithin p new e.1 e.2)) ∧
      ∀ f' : Node, f'.field? .body = some (body.replaceAt p new) →
        f'.ownReturns = body.openReturns.map fun e => replacedWithin p new e.1 e.2 := by
  have hown := ownReturns_eq hbody
  refine ⟨hown, pairwise_openReturns body, fun w s => mem_openReturns_block_iff hblock, fun h => ?_,
    fun p new h => ?_⟩
  · have hsource : f.ownReturns.Pairwise fun s t => s.start ≤ t.start := by
      have hsub : (body.openReturns.map Prod.snd).Sublist body.preorder := by
        rw [← map_placed]
        exact List.filter_sublist.map _
      rw [hown]
      exact (pairwise_preorder h).sublist hsub
    exact ⟨hsource, List.mergeSort_of_pairwise (hsource.imp fun hle => decide_eq_true hle)⟩
  · have hn : body.hidesReturns = false := by
      simp [hidesReturns, hblock, Kind.isFunction]
    have hreplaced := openReturns_replaceAt h hn
    refine ⟨hreplaced, fun f' hbody' => ?_⟩
    rw [ownReturns_eq hbody', hreplaced, List.map_map]
    rfl

/-- A block with a class, whose method returns, and with a return statement behind the class. -/
def classBlock : Node :=
  planted .block (some .body) "" [planted .classDeclaration none "" [planted .classBody (some .body) ""
    [planted .methodDefinition none "" [planted .block (some .body) "" [planted .returnStatement none "" []]]]],
    planted .returnStatement none "" []]

/-- A function that returns a function, with another body of the inner one; and a class with another body, in
    front of a return statement. -/
theorem own_returns_nesting :
    (∃ root ∈ (readModule .plain "function f(a)\x7breturn b=>\x7breturn 1\x7d\x7d").toOption,
      ∃ f ∈ root.descendants.find? (fun n => n.kind == .functionDeclaration), ∃ body ∈ f.field? .body,
        f.ownReturns.map text = ["return b=>\x7breturn 1\x7d"] ∧
        f.ownReturns.mergeSort (fun s t => decide (s.start ≤ t.start)) = f.ownReturns ∧
        ∀ new : Node, (planted .functionDeclaration none "" [body.replaceAt [0, 0, 1] new]).ownReturns =
          body.openReturns.map fun e => replacedWithin [0, 0, 1] new e.1 e.2) ∧
    ∀ new : Node, new.kind = .classBody →
      (classBlock.replaceAt [0, 0] new).openReturns.map Prod.fst = [[1]] := by
  obtain ⟨root, hroot, e, hf, body, hbody, hrole, hblock, horder, hreturns, g, hg, hfunction⟩ :
      ∃ root ∈ (readModule .plain "function f(a)\x7breturn b=>\x7breturn 1\x7d\x7d").toOption,
        ∃ e ∈ root.placedBelow.find? ((fun n => n.kind == .functionDeclaration) ∘ Prod.snd),
          ∃ body ∈ e.2.field? .body, body.role = some .body ∧ body.kind = .block ∧ body.InOrder ∧
            body.openReturns.map (text ∘ Prod.snd) = ["return b=>\x7breturn 1\x7d"] ∧
            ∃ g ∈ body.at? [0, 0], g.kind.isFunction = true := by
    decide +kernel
  obtain ⟨hown, -, -, hsorted, hreplaced⟩ := own_returns hbody hblock
  have hfound : root.descendants.find? (fun n => n.kind == .functionDeclaration) = some e.2 := by
    rw [descendants_eq_inner, ← map_placedBelow, List.find?_map, Option.mem_def.1 hf]
    rfl
  refine ⟨⟨root, hroot, e.2, hfound, body, hbody, ?_, (hsorted horder).2, fun new => ?_⟩, fun new hnew => ?_⟩
  · rw [hown, List.map_map]
    exact hreturns
  · refine (hreplaced _ new (.function hg hfunction (List.cons_ne_nil 1 []) rfl)).2 _ ?_
    have hnewRole : (body.replaceAt [0, 0, 1] new).role = some .body :=
      (role_replaceAt body new (List.cons_ne_nil _ _)).trans hrole
    simp [field?, planted, children, hnewRole]
  · have hclass : (planted .functionDeclaration none "" [classBlock]).field? .body = some classBlock := rfl
    obtain ⟨-, -, -, -, hreplaced⟩ := own_returns hclass rfl
    have hways : classBlock.openReturns.map Prod.fst = [[1]] := by decide +kernel
    rw [(hreplaced [0, 0] new (.classBody rfl rfl hnew)).1, List.map_map]
    exact hways

end RouteAtlas.Code.Node
