/-
  RouteAtlas: calls inside calls.

  * `Nested scope outer inner` says that one call can make another one right inside it, with one rule
    for each place where it does;
  * `keysOf root scope` are the names and the members of names that can be resolved; a frame that is
    `Within` the module resolves each of them at most once;
  * a call inside another one is lower in the tree or has a new mark (`nested_lower_or_marks`), so the
    `room` for further calls falls (`room_lt_of_nested`), which bounds the length of a chain
    (`Linked.length_le`);
  * `HoldsOfParts.scopeOf`: what holds of all bindings that are made of parts of a module holds of its
    scopes, so their names stand for parts of the module (`scopeOf_within`).
-/
import Mathlib.Data.List.Dedup
import Mathlib.Data.List.Perm.Subperm
import RouteAtlas.Proofs.Code.Tree
import RouteAtlas.Proofs.Typing.Context

namespace RouteAtlas.Typing

open RouteAtlas.Code RouteAtlas.Text

/-! ## Calls inside each other -/

/-- The member of a name that a node accesses, if it does: the name and the key. -/
def accessed? (n : Node) : Option (String × String) :=
  match (n.field? .object).map Node.unwrap with
  | some object =>
    if object.kind == .identifier then some (object.text, n.fieldText .property) else none
  | none => none

/-- How a member of a name is marked. -/
def pathOf (access : String × String) : String :=
  access.1 ++ "." ++ access.2

/-- One call can make another one right inside it. -/
inductive Nested (scope : Scope) : Frame → Frame → Prop
  | child {n e : Node} {marks : List String} : e ∈ n.children →
      Nested scope ⟨.infer n, marks⟩ ⟨.infer e, marks⟩
  | member {n m e : Node} {marks : List String} : m ∈ n.children → e ∈ m.children →
      Nested scope ⟨.infer n, marks⟩ ⟨.infer e, marks⟩
  | method {n m : Node} {marks : List String} : m ∈ n.children →
      Nested scope ⟨.infer n, marks⟩ ⟨.functionType m, marks⟩
  | name {n : Node} {name : String} {marks : List String} :
      Nested scope ⟨.infer n, marks⟩ ⟨.resolve name, marks⟩
  | function {n : Node} {marks : List String} :
      Nested scope ⟨.infer n, marks⟩ ⟨.functionType n, marks⟩
  | call {n : Node} {marks : List String} :
      Nested scope ⟨.infer n, marks⟩ ⟨.callType n, marks⟩
  | access {n : Node} {marks : List String} : n.kind = .member →
      Nested scope ⟨.infer n, marks⟩ ⟨.memberType n, marks⟩
  /-- The name is not being resolved, and stands for an expression. -/
  | value {name : String} {e : Node} {marks : List String} : name ∉ marks →
      scope.find? name = some (.value e) →
      Nested scope ⟨.resolve name, marks⟩ ⟨.infer e, name :: marks⟩
  /-- The name is not being resolved, and is that of a function. -/
  | declared {name : String} {f : Node} {marks : List String} : name ∉ marks →
      scope.find? name = some (.function f) →
      Nested scope ⟨.resolve name, marks⟩ ⟨.functionType f, name :: marks⟩
  | result {f : Node} {marks : List String} :
      Nested scope ⟨.functionType f, marks⟩ ⟨.returnType f, marks⟩
  | body {f body : Node} {marks : List String} : body ∈ f.children →
      Nested scope ⟨.returnType f, marks⟩ ⟨.infer body, marks⟩
  | returned {f s e : Node} {marks : List String} : s ∈ f.ownReturns → e ∈ s.children →
      Nested scope ⟨.returnType f, marks⟩ ⟨.infer e, marks⟩
  /-- The called name is not being resolved, and stands for a function. -/
  | callee {n f : Node} {name : String} {marks : List String} : name ∉ marks →
      scope.callable? name = some f →
      Nested scope ⟨.callType n, marks⟩ ⟨.returnType f, name :: marks⟩
  | object {n object : Node} {marks : List String} : n.field? .object = some object →
      Nested scope ⟨.memberType n, marks⟩ ⟨.infer object.unwrap, marks⟩
  | literalValue {n object m e : Node} {marks : List String} : n.field? .object = some object →
      m ∈ object.unwrap.children → e ∈ m.children →
      Nested scope ⟨.memberType n, marks⟩ ⟨.infer e, marks⟩
  | literalName {n : Node} {name : String} {marks : List String} :
      Nested scope ⟨.memberType n, marks⟩ ⟨.resolve name, marks⟩
  /-- The member is not being resolved, and its object stands for a literal. -/
  | namedValue {n literal m e : Node} {access : String × String} {marks : List String} :
      accessed? n = some access → pathOf access ∉ marks → scope.value? access.1 = some literal →
      m ∈ literal.children → e ∈ m.children →
      Nested scope ⟨.memberType n, marks⟩ ⟨.infer e, pathOf access :: marks⟩
  | namedName {n : Node} {name : String} {access : String × String} {marks : List String} :
      accessed? n = some access → pathOf access ∉ marks → (scope.value? access.1).isSome →
      Nested scope ⟨.memberType n, marks⟩ ⟨.resolve name, pathOf access :: marks⟩

/-- Every call of a chain is right inside the next one. -/
def Linked (scope : Scope) (chain : Chain) : Prop :=
  chain.IsChain fun inner outer => Nested scope outer inner

theorem linked_single (scope : Scope) (frame : Frame) : Linked scope [frame] :=
  .singleton frame

variable {scope : Scope}

theorem Linked.nest {outer inner : Frame} {chain : Chain} (h : Linked scope (outer :: chain))
    (hn : Nested scope outer inner) : Linked scope (inner :: outer :: chain) :=
  List.isChain_cons_cons.2 ⟨hn, h⟩

/-! ## Frames within a module -/

/-- The names of a scope, each once. -/
def boundNames (scope : Scope) : List String :=
  (scope.map Prod.fst).dedup

/-- The members of names that a module accesses, each once. -/
def accesses (root : Node) : List (String × String) :=
  ((root.preorder.filter fun n => n.kind == .member).filterMap accessed?).dedup

/-- What can be marked as being resolved. -/
def keysOf (root : Node) (scope : Scope) : List String :=
  boundNames scope ++ (accesses root).map pathOf

/-- What a name stands for is in a module. -/
def Binding.Within (root : Node) : Binding → Prop
  | .value e => e ∈ root.preorder
  | .function f => f ∈ root.preorder
  | _ => True

/-- A call is about a part of a module. -/
def Call.Within (root : Node) : Call → Prop
  | .infer e => e ∈ root.preorder
  | .resolve _ => True
  | .functionType f => f ∈ root.preorder
  | .returnType f => f ∈ root.preorder
  | .callType n => n ∈ root.preorder
  | .memberType n => n ∈ root.preorder ∧ n.kind = .member

/-- A frame is about a part of a module, and what it resolves is marked once. -/
structure Frame.Within (root : Node) (scope : Scope) (frame : Frame) : Prop where
  call : frame.call.Within root
  nodup : frame.resolving.Nodup
  known : ∀ key ∈ frame.resolving, key ∈ keysOf root scope

theorem mem_boundNames {name : String} {b : Binding} (h : scope.find? name = some b) :
    name ∈ boundNames scope := by
  obtain ⟨l₁, l₂, rfl, -⟩ := List.lookup_eq_some_iff.1 h
  exact List.mem_dedup.2 (List.mem_map.2 ⟨(name, b), by simp, rfl⟩)

theorem mem_of_find? {name : String} {b : Binding} (h : scope.find? name = some b) :
    (name, b) ∈ scope := by
  obtain ⟨l₁, l₂, rfl, -⟩ := List.lookup_eq_some_iff.1 h
  simp

variable {root : Node}

theorem mem_keysOf_name {name : String} {b : Binding} (h : scope.find? name = some b) :
    name ∈ keysOf root scope :=
  List.mem_append_left _ (mem_boundNames h)

theorem mem_keysOf_path {n : Node} {access : String × String} (hn : n ∈ root.preorder)
    (hk : n.kind = .member) (h : accessed? n = some access) :
    pathOf access ∈ keysOf root scope := by
  refine List.mem_append_right _ (List.mem_map.2 ⟨access, List.mem_dedup.2 ?_, rfl⟩)
  exact List.mem_filterMap.2 ⟨n, List.mem_filter.2 ⟨hn, by simp [hk]⟩, h⟩

/-- What is being resolved is no more than what can be. -/
theorem Frame.Within.length_le {frame : Frame} (h : frame.Within root scope) :
    frame.resolving.length ≤ (keysOf root scope).length :=
  (h.nodup.subperm h.known).length_le

/-- A call with one more mark is within the module if the mark is new and known. -/
theorem Frame.Within.mark {call inner : Call} {marks : List String} {key : String}
    (h : Frame.Within root scope ⟨call, marks⟩) (hc : inner.Within root) (hnew : key ∉ marks)
    (hkey : key ∈ keysOf root scope) : Frame.Within root scope ⟨inner, key :: marks⟩ where
  call := hc
  nodup := List.nodup_cons.2 ⟨hnew, h.nodup⟩
  known := by
    intro k hk
    rcases List.mem_cons.1 hk with rfl | hk
    · exact hkey
    · exact h.known k hk

theorem Frame.Within.same {call inner : Call} {marks : List String}
    (h : Frame.Within root scope ⟨call, marks⟩) (hc : inner.Within root) :
    Frame.Within root scope ⟨inner, marks⟩ :=
  ⟨hc, h.nodup, h.known⟩

theorem find?_of_callable? {name : String} {f : Node} (h : scope.callable? name = some f) :
    ∃ b, scope.find? name = some b := by
  unfold Scope.callable? at h
  cases hb : scope.find? name with
  | none => rw [hb] at h; cases h
  | some b => exact ⟨b, rfl⟩

theorem value?_eq_some {name : String} {e : Node} (h : scope.value? name = some e) :
    ∃ v, scope.find? name = some (.value v) ∧ e = v.unwrap := by
  unfold Scope.value? at h
  split at h
  · rename_i v hv; cases h; exact ⟨v, hv, rfl⟩
  · cases h

/-- A scope whose names stand for parts of a module. -/
def ScopeWithin (root : Node) (scope : Scope) : Prop :=
  ∀ entry ∈ scope, entry.2.Within root

theorem ScopeWithin.callable (hs : ScopeWithin root scope) {name : String} {f : Node}
    (h : scope.callable? name = some f) : f ∈ root.preorder := by
  unfold Scope.callable? at h
  split at h
  · rename_i f' hf; cases h; exact hs _ (mem_of_find? hf)
  · rename_i e he
    split at h
    · cases h
      exact Node.mem_preorder_trans (Node.unwrap_mem_preorder e) (hs _ (mem_of_find? he))
    · cases h
  · cases h

theorem ScopeWithin.value (hs : ScopeWithin root scope) {name : String} {e : Node}
    (h : scope.value? name = some e) : e ∈ root.preorder := by
  obtain ⟨v, hv, rfl⟩ := value?_eq_some h
  exact Node.mem_preorder_trans (Node.unwrap_mem_preorder v) (hs _ (mem_of_find? hv))

theorem grandchild_mem_preorder {n m e : Node} (hn : n ∈ root.preorder) (hm : m ∈ n.children)
    (he : e ∈ m.children) : e ∈ root.preorder :=
  Node.child_mem_preorder (Node.child_mem_preorder hn hm) he

theorem object_mem_preorder {n object : Node} (hn : n ∈ root.preorder)
    (h : n.field? .object = some object) : object.unwrap ∈ root.preorder :=
  Node.mem_preorder_trans (Node.unwrap_mem_preorder object)
    (Node.child_mem_preorder hn (Node.mem_children_of_field? h))

/-- **A call inside a call within a module is within the module**: it is about a part of the module,
    and what it marks was not marked before. -/
theorem within_of_nested {outer inner : Frame} (hs : ScopeWithin root scope)
    (h : outer.Within root scope) (hn : Nested scope outer inner) : inner.Within root scope := by
  cases hn with
  | child he => exact h.same (Node.child_mem_preorder h.call he)
  | member hm he => exact h.same (grandchild_mem_preorder h.call hm he)
  | method hm => exact h.same (Node.child_mem_preorder h.call hm)
  | name => exact h.same trivial
  | function => exact h.same h.call
  | call => exact h.same h.call
  | access hk => exact h.same ⟨h.call, hk⟩
  | value hnew hb => exact h.mark (hs _ (mem_of_find? hb)) hnew (mem_keysOf_name hb)
  | declared hnew hb => exact h.mark (hs _ (mem_of_find? hb)) hnew (mem_keysOf_name hb)
  | result => exact h.same h.call
  | body hb => exact h.same (Node.child_mem_preorder h.call hb)
  | returned hr he =>
    exact h.same (Node.child_mem_preorder (Node.ownReturns_mem_preorder h.call hr) he)
  | callee hnew hf =>
    obtain ⟨b, hb⟩ := find?_of_callable? hf
    exact h.mark (hs.callable hf) hnew (mem_keysOf_name hb)
  | object ho => exact h.same (object_mem_preorder h.call.1 ho)
  | literalValue ho hm he =>
    exact h.same (grandchild_mem_preorder (object_mem_preorder h.call.1 ho) hm he)
  | literalName => exact h.same trivial
  | namedValue ha hnew hv hm he =>
    exact h.mark (grandchild_mem_preorder (hs.value hv) hm he) hnew
      (mem_keysOf_path h.call.1 h.call.2 ha)
  | namedName ha hnew _ => exact h.mark trivial hnew (mem_keysOf_path h.call.1 h.call.2 ha)

/-! ## The length of chains -/

/-- The calls that can still be inside a call while nothing new is marked: three for each level of the
    tree, and none for a name. -/
def Call.levels : Call → Nat
  | .infer e => 3 * e.height
  | .resolve _ => 0
  | .functionType f => 3 * f.height - 1
  | .returnType f => 3 * f.height - 2
  | .callType n => 3 * n.height - 1
  | .memberType n => 3 * n.height - 1

/-- The calls between two marks: those of the levels of the module, and that of a name. -/
def span (root : Node) : Nat :=
  3 * root.height + 1

/-- What is left for further calls inside a frame. -/
def room (root : Node) (scope : Scope) (frame : Frame) : Nat :=
  ((keysOf root scope).length - frame.resolving.length) * span root + frame.call.levels

/-- The greatest length of a chain. -/
def chainBound (root : Node) (scope : Scope) : Nat :=
  ((boundNames scope).length + (accesses root).length + 1) * span root

theorem levels_lt_span {call : Call} (h : call.Within root) : call.levels < span root := by
  unfold span
  cases call with
  | resolve name => simp [Call.levels]
  | infer e => have := Node.height_le_of_mem_preorder h; simp only [Call.levels]; omega
  | functionType f => have := Node.height_le_of_mem_preorder h; simp only [Call.levels]; omega
  | returnType f => have := Node.height_le_of_mem_preorder h; simp only [Call.levels]; omega
  | callType n => have := Node.height_le_of_mem_preorder h; simp only [Call.levels]; omega
  | memberType n => have := Node.height_le_of_mem_preorder h.1; simp only [Call.levels]; omega

theorem height_object_lt {n object : Node} (h : n.field? .object = some object) :
    object.unwrap.height < n.height :=
  Nat.lt_of_le_of_lt object.height_unwrap_le (Node.height_lt_of_mem (Node.mem_children_of_field? h))

/-- **A call inside another one is lower in the tree, or has a new mark.** -/
theorem nested_lower_or_marks {outer inner : Frame} (hn : Nested scope outer inner) :
    (inner.resolving = outer.resolving ∧ inner.call.levels < outer.call.levels) ∨
      ∃ key, inner.resolving = key :: outer.resolving := by
  cases hn with
  | child he =>
    have := Node.height_lt_of_mem he
    exact Or.inl ⟨rfl, by simp only [Call.levels]; omega⟩
  | member hm he =>
    have := Node.height_lt_of_mem hm
    have := Node.height_lt_of_mem he
    exact Or.inl ⟨rfl, by simp only [Call.levels]; omega⟩
  | method hm =>
    have := Node.height_lt_of_mem hm
    exact Or.inl ⟨rfl, by simp only [Call.levels]; omega⟩
  | @name n =>
    have := n.height_pos
    exact Or.inl ⟨rfl, by simp only [Call.levels]; omega⟩
  | @function n =>
    have := n.height_pos
    exact Or.inl ⟨rfl, by simp only [Call.levels]; omega⟩
  | @call n =>
    have := n.height_pos
    exact Or.inl ⟨rfl, by simp only [Call.levels]; omega⟩
  | @access n =>
    have := n.height_pos
    exact Or.inl ⟨rfl, by simp only [Call.levels]; omega⟩
  | value => exact Or.inr ⟨_, rfl⟩
  | declared => exact Or.inr ⟨_, rfl⟩
  | @result f =>
    have := f.height_pos
    exact Or.inl ⟨rfl, by simp only [Call.levels]; omega⟩
  | body hb =>
    have := Node.height_lt_of_mem hb
    exact Or.inl ⟨rfl, by simp only [Call.levels]; omega⟩
  | returned hr he =>
    have := Node.height_lt_of_mem_ownReturns hr he
    exact Or.inl ⟨rfl, by simp only [Call.levels]; omega⟩
  | callee => exact Or.inr ⟨_, rfl⟩
  | object ho =>
    have := height_object_lt ho
    exact Or.inl ⟨rfl, by simp only [Call.levels]; omega⟩
  | literalValue ho hm he =>
    have := height_object_lt ho
    have := Node.height_lt_of_mem hm
    have := Node.height_lt_of_mem he
    exact Or.inl ⟨rfl, by simp only [Call.levels]; omega⟩
  | @literalName n =>
    have := n.height_pos
    exact Or.inl ⟨rfl, by simp only [Call.levels]; omega⟩
  | namedValue => exact Or.inr ⟨_, rfl⟩
  | namedName => exact Or.inr ⟨_, rfl⟩

/-- **A call inside another one has less room.**  A new mark makes up for all levels of the module. -/
theorem room_lt_of_nested {outer inner : Frame} (hs : ScopeWithin root scope)
    (h : outer.Within root scope) (hn : Nested scope outer inner) :
    room root scope inner < room root scope outer := by
  have hin : inner.Within root scope := within_of_nested hs h hn
  rcases nested_lower_or_marks hn with ⟨hmarks, hlower⟩ | ⟨key, hmarks⟩
  · rw [room, room, hmarks]
    exact Nat.add_lt_add_left hlower _
  · have hlevels : inner.call.levels < span root := levels_lt_span hin.call
    have hlen : outer.resolving.length + 1 ≤ (keysOf root scope).length := by
      simpa [hmarks] using hin.length_le
    obtain ⟨left, hleft⟩ := Nat.exists_eq_add_of_le hlen
    rw [room, room, hmarks, List.length_cons,
      show (keysOf root scope).length - (outer.resolving.length + 1) = left by omega,
      show (keysOf root scope).length - outer.resolving.length = left + 1 by omega, Nat.succ_mul]
    omega

/-- All frames of a chain that starts within a module are within it, and the chain is no longer than
    its first frame has room. -/
theorem Linked.within {first : Frame} (hs : ScopeWithin root scope)
    (hfirst : first.Within root scope) :
    ∀ {chain : Chain}, Linked scope chain → chain.getLast? = some first →
      (∀ frame ∈ chain, frame.Within root scope) ∧
      ∀ frame ∈ chain.head?, room root scope frame + chain.length ≤ room root scope first + 1
  | [], _, hlast => by cases hlast
  | [frame], _, hlast => by
    cases hlast
    exact ⟨by simpa using hfirst, by simp⟩
  | inner :: outer :: chain, hl, hlast => by
    obtain ⟨hn, hl'⟩ := List.isChain_cons_cons.1 hl
    obtain ⟨hall, hroom⟩ := Linked.within hs hfirst hl' (by simpa using hlast)
    have houter : outer.Within root scope := hall outer (by simp)
    refine ⟨fun frame hf => ?_, fun frame hf => ?_⟩
    · rcases List.mem_cons.1 hf with rfl | hf
      · exact within_of_nested hs houter hn
      · exact hall frame hf
    · cases hf
      have := hroom outer rfl
      have := room_lt_of_nested hs houter hn
      simp only [List.length_cons] at *
      omega

/-- **A chain that starts with nothing resolved has a bounded length.** -/
theorem Linked.length_le {call : Call} {chain : Chain} (hs : ScopeWithin root scope)
    (hc : call.Within root) (hl : Linked scope chain) (hlast : chain.getLast? = some ⟨call, []⟩) :
    chain.length ≤ chainBound root scope := by
  have hfirst : Frame.Within root scope ⟨call, []⟩ := ⟨hc, List.nodup_nil, by simp⟩
  obtain ⟨-, hroom⟩ := hl.within hs hfirst hlast
  have hlevels := levels_lt_span hc
  cases chain with
  | nil => cases hlast
  | cons frame chain =>
    have h : room root scope frame + (chain.length + 1) ≤ room root scope ⟨call, []⟩ + 1 :=
      hroom frame rfl
    have hkeys : (keysOf root scope).length = (boundNames scope).length + (accesses root).length := by
      simp [keysOf]
    have hbound : chainBound root scope = (keysOf root scope).length * span root + span root := by
      rw [chainBound, hkeys, Nat.succ_mul]
    have hroom₀ : room root scope ⟨call, []⟩ =
        (keysOf root scope).length * span root + call.levels := rfl
    rw [List.length_cons, hbound]
    omega

/-! ## The scope of a module -/

/-- The key of a member of an object pattern. -/
def patternKey? (m : Node) : Option String :=
  match m.kind with
  | .shorthandPattern => some m.text
  | .pairPattern => some (strip ['\'', '"'] (m.fieldText .key))
  | .defaultPattern => (m.field? .left).map Node.text
  | _ => none

/-- A statement holds of all bindings that are made of parts of a module. -/
structure HoldsOfParts (root : Node) (P : Binding → Prop) : Prop where
  untyped : P .untyped
  annotated : ∀ n ∈ root.preorder, ∀ type ∈ typeTextOf (n.field? .type), P (.annotated type)
  member : ∀ n ∈ root.preorder, ∀ type ∈ typeTextOf (n.field? .type),
    ∀ m ∈ root.preorder, ∀ key ∈ patternKey? m, P (.member type key)
  value : ∀ e ∈ root.preorder, P (.value e)
  function : ∀ f ∈ root.preorder, P (.function f)

section
variable {P : Binding → Prop} (hP : HoldsOfParts root P)
include hP

theorem HoldsOfParts.plainBinding {n : Node} (hn : n ∈ root.preorder) :
    P (plainBinding (typeTextOf (n.field? .type))) := by
  cases ht : typeTextOf (n.field? .type) with
  | none => exact hP.untyped
  | some type => exact hP.annotated n hn type ht

theorem HoldsOfParts.memberBinding {n m : Node} {key : String} (hn : n ∈ root.preorder)
    (hm : m ∈ root.preorder) (hkey : patternKey? m = some key) :
    P (memberBinding (typeTextOf (n.field? .type)) key) := by
  cases ht : typeTextOf (n.field? .type) with
  | none => exact hP.untyped
  | some type => exact hP.member n hn type ht m hm key hkey

theorem HoldsOfParts.memberBindings {n m : Node} (hn : n ∈ root.preorder) (hm : m ∈ root.preorder) :
    ∀ entry ∈ memberBindings (typeTextOf (n.field? .type)) m, P entry.2 := by
  intro entry h
  unfold Typing.memberBindings at h
  split at h
  · rename_i hk
    rw [List.mem_singleton.1 h]
    exact hP.memberBinding hn hm (by simp [patternKey?, hk])
  · rename_i hk
    split at h
    · split at h
      · rw [List.mem_singleton.1 h]
        exact hP.memberBinding hn hm (by simp [patternKey?, hk])
      · cases h
    · cases h
  · rename_i hk
    split at h
    · rename_i l hl
      rw [List.mem_singleton.1 h]
      exact hP.memberBinding hn hm (by simp [patternKey?, hk, hl])
    · cases h
  · cases h

/-- What a pattern binds with the type that a node is written with. -/
theorem HoldsOfParts.patternBindings {n : Node} {pattern : Option Node} (hn : n ∈ root.preorder)
    (hpattern : ∀ p ∈ pattern, p ∈ root.preorder) :
    ∀ entry ∈ patternBindings pattern (typeTextOf (n.field? .type)), P entry.2 := by
  intro entry h
  unfold Typing.patternBindings at h
  split at h
  · cases h
  · rename_i p
    split at h
    · rw [List.mem_singleton.1 h]; exact hP.plainBinding hn
    · split at h
      · obtain ⟨m, hm, h⟩ := List.mem_flatMap.1 h
        exact hP.memberBindings hn
          (Node.child_mem_preorder (hpattern p rfl) (Node.mem_children_of_mem_named hm)) entry h
      · cases h

theorem HoldsOfParts.parameterBindings {f : Node} (hf : f ∈ root.preorder) :
    ∀ entry ∈ parameterBindings f, P entry.2 := by
  intro entry h
  unfold Typing.parameterBindings at h
  split at h
  · rw [List.mem_singleton.1 h]; exact hP.untyped
  · split at h
    · cases h
    · rename_i ps hps
      obtain ⟨p, hp, h⟩ := List.mem_flatMap.1 h
      have hp' : p ∈ root.preorder := grandchild_mem_preorder hf
        (Node.mem_children_of_field? hps) (Node.mem_children_of_mem_named hp)
      split at h
      · exact hP.patternBindings hp'
          (fun q hq => Node.child_mem_preorder hp' (Node.mem_children_of_field? hq)) entry h
      · cases h

theorem HoldsOfParts.declaratorBindings {d : Node} (hd : d ∈ root.preorder) :
    ∀ entry ∈ declaratorBindings d, P entry.2 := by
  intro entry h
  have hfield : ∀ {role : Role} {c : Node}, d.field? role = some c → c ∈ root.preorder := fun hc =>
    Node.child_mem_preorder hd (Node.mem_children_of_field? hc)
  unfold Typing.declaratorBindings at h
  simp only at h
  split at h
  · cases h
  · rename_i name hname
    split at h
    · split at h
      · rename_i type ht
        rw [List.mem_singleton.1 h]; exact hP.annotated d hd type ht
      · rename_i v _ hv
        rw [List.mem_singleton.1 h]; exact hP.value v (hfield hv)
      · rw [List.mem_singleton.1 h]; exact hP.untyped
    · exact hP.patternBindings hd (fun p hp => by cases hp; exact hfield hname) entry h

theorem HoldsOfParts.statementBindings {s : Node} (hs : s ∈ root.preorder) :
    ∀ entry ∈ statementBindings s, P entry.2 := by
  intro entry h
  unfold Typing.statementBindings at h
  split at h
  · obtain ⟨d, hd, h⟩ := List.mem_flatMap.1 h
    split at h
    · exact hP.declaratorBindings
        (Node.child_mem_preorder hs (Node.mem_children_of_mem_named hd)) entry h
    · cases h
  · split at h
    · rw [List.mem_singleton.1 h]; exact hP.function s hs
    · cases h

theorem HoldsOfParts.moduleBindings : ∀ entry ∈ moduleBindings root, P entry.2 := by
  intro entry h
  obtain ⟨s, hs, h⟩ := List.mem_flatMap.1 h
  have hs' : s ∈ root.preorder :=
    Node.mem_preorder_of_mem_children (Node.mem_children_of_mem_named hs)
  split at h
  · split at h
    · rename_i d hd
      exact hP.statementBindings
        (Node.child_mem_preorder hs' (Node.mem_children_of_field? hd)) entry h
    · cases h
  · exact hP.statementBindings hs' entry h

theorem HoldsOfParts.functionBindings {f : Node} (hf : f ∈ root.preorder) :
    ∀ entry ∈ functionBindings f, P entry.2 := by
  intro entry h
  rcases List.mem_append.1 h with h | h
  · exact hP.parameterBindings hf entry h
  · obtain ⟨n, hn, h⟩ := List.mem_flatMap.1 h
    have hn' : n ∈ root.preorder :=
      Node.mem_preorder_trans (Node.mem_preorder_of_mem_descendants hn) hf
    unfold innerBindings at h
    split at h
    · exact hP.declaratorBindings hn' entry h
    · split at h
      · rw [List.mem_singleton.1 h]; exact hP.function n hn'
      · split at h
        · exact hP.parameterBindings hn' entry h
        · cases h

/-- **What holds of all bindings that are made of parts of a module holds of its scopes.** -/
theorem HoldsOfParts.scopeOf {function : Option Node} (hf : ∀ f ∈ function, f ∈ root.preorder) :
    ∀ entry ∈ Scope.of root function, P entry.2 := by
  intro entry h
  rcases List.mem_append.1 (List.mem_filter.1 h).1 with h | h
  · cases function with
    | none => cases h
    | some f => exact hP.functionBindings (hf f rfl) entry h
  · exact hP.moduleBindings entry h

end

/-- **The names of a scope stand for parts of its module.** -/
theorem scopeOf_within {function : Option Node} (hf : ∀ f ∈ function, f ∈ root.preorder) :
    ScopeWithin root (Scope.of root function) :=
  HoldsOfParts.scopeOf ⟨trivial, fun _ _ _ _ => trivial, fun _ _ _ _ _ _ _ _ => trivial,
    fun _ he => he, fun _ hf => hf⟩ hf

end RouteAtlas.Typing
