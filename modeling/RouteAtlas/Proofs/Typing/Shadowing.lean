/-
  RouteAtlas: names of a handler in front of names of its module.

  * `Registers f n` says that a function registers a name: its own parameter, one of a function
    expression, an arrow function or a method in it, a variable or a function declared in it.  Patterns
    count as far as they are names or the plain members of an object; the parameters of a function
    *declared* inside, the elements of an array pattern, patterns inside patterns, and the names of the
    heads of loops and of catch clauses do not;
  * `registers_iff`: these are the names of `functionBindings`;
  * `shadows_exactly_registered`: a name that is registered never has the type of the module's name,
    and one that is not has just this type.
-/
import Mathlib
import RouteAtlas.Proofs.Code.Tree
import RouteAtlas.Proofs.Typing.Agreement

namespace RouteAtlas.Typing

open RouteAtlas.Code

/-! ## Names of scopes -/

/-- Some entries bind a name. -/
def Binds (entries : Scope) (n : String) : Prop :=
  ∃ b, (n, b) ∈ entries

@[simp] theorem binds_nil (n : String) : Binds [] n ↔ False := by
  simp [Binds]

@[simp] theorem binds_singleton (m n : String) (b : Binding) : Binds [(m, b)] n ↔ m = n := by
  simp [Binds, eq_comm]

@[simp] theorem binds_append (s s' : Scope) (n : String) :
    Binds (s ++ s') n ↔ Binds s n ∨ Binds s' n := by
  simp [Binds, exists_or]

@[simp] theorem binds_flatMap {α : Type} (as : List α) (f : α → Scope) (n : String) :
    Binds (as.flatMap f) n ↔ ∃ a ∈ as, Binds (f a) n := by
  simp only [Binds, List.mem_flatMap]
  constructor
  · rintro ⟨b, a, ha, hb⟩; exact ⟨a, ha, b, hb⟩
  · rintro ⟨a, ha, b, hb⟩; exact ⟨b, a, ha, hb⟩

/-- A name is looked up where some entry binds it. -/
theorem binds_iff_lookup (s : Scope) (n : String) : Binds s n ↔ ∃ b, s.lookup n = some b := by
  induction s with
  | nil => simp
  | cons entry s ih =>
    obtain ⟨m, b⟩ := entry
    rw [List.lookup_cons, show (m, b) :: s = [(m, b)] ++ s from rfl, binds_append, ih]
    by_cases h : n = m
    · simp [h]
    · simp [beq_eq_false_iff_ne.2 h, Ne.symm h]

theorem lookup_named (s : Scope) (n : String) :
    (s.filter fun entry => !entry.1.isEmpty).lookup n = if n = "" then none else s.lookup n := by
  induction s with
  | nil => simp
  | cons entry s ih =>
    obtain ⟨m, b⟩ := entry
    rw [List.filter_cons, List.lookup_cons]
    by_cases hm : m = ""
    · subst hm
      by_cases hn : n = ""
      · simp [hn]
      · simp [ih, hn, beq_eq_false_iff_ne.2 hn]
    · have hne : m.isEmpty = false := by simpa using hm
      simp only [hne, Bool.not_false, if_true, List.lookup_cons, ih]
      by_cases hn : n = m
      · simp [hn, hm]
      · simp [beq_eq_false_iff_ne.2 hn]

theorem find?_of_module (root : Node) (n : String) :
    (Scope.of root none).find? n = if n = "" then none else (moduleBindings root).lookup n := by
  unfold Scope.find? Scope.of
  exact lookup_named _ n

/-- A name of a function stands before one of its module. -/
theorem find?_of_function (root f : Node) (n : String) :
    (Scope.of root (some f)).find? n =
      if n = "" then none
      else ((functionBindings f).lookup n).or ((moduleBindings root).lookup n) := by
  unfold Scope.find? Scope.of
  rw [lookup_named, List.lookup_append]

/-! ## Names that a function registers -/

/-- A member of an object pattern is plain, and binds a name. -/
inductive MemberBinds (m : Node) (n : String) : Prop
  | shorthand : m.kind = .shorthandPattern → m.text = n → MemberBinds m n
  | renamed {v : Node} : m.kind = .pairPattern → m.field? .value = some v → v.kind = .identifier →
      v.text = n → MemberBinds m n
  | defaulted {l : Node} : m.kind = .defaultPattern → m.field? .left = some l → l.text = n →
      MemberBinds m n

/-- A pattern is a name, or has a plain member with the name. -/
inductive PatternBinds (p : Node) (n : String) : Prop
  | name : p.kind = .identifier → p.text = n → PatternBinds p n
  | member {m : Node} : p.kind = .objectPattern → m ∈ p.named → MemberBinds m n → PatternBinds p n

/-- A parameter of a function binds a name. -/
inductive ParameterBinds (g : Node) (n : String) : Prop
  | single {p : Node} : g.field? .parameter = some p → p.text = n → ParameterBinds g n
  | listed {ps p pattern : Node} : g.field? .parameter = none → g.field? .parameters = some ps →
      p ∈ ps.named → p.kind = .requiredParameter ∨ p.kind = .optionalParameter →
      p.field? .pattern = some pattern → PatternBinds pattern n → ParameterBinds g n

/-- A function registers a name. -/
inductive Registers (f : Node) (n : String) : Prop
  | parameter : ParameterBinds f n → Registers f n
  | declared {d pattern : Node} : d ∈ f.descendants → d.kind = .declarator →
      d.field? .name = some pattern → PatternBinds pattern n → Registers f n
  | function {g : Node} : g ∈ f.descendants → isFunctionDeclaration g = true →
      g.fieldText .name = n → Registers f n
  /-- A function inside that is no declaration has it as a parameter. -/
  | inner {g : Node} : g ∈ f.descendants → g.kind.isFunction = true →
      isFunctionDeclaration g = false → ParameterBinds g n → Registers f n

theorem binds_memberBindings (type : Option String) (m : Node) (n : String) :
    Binds (memberBindings type m) n ↔ MemberBinds m n := by
  constructor
  · intro h
    unfold memberBindings at h
    split at h
    · rename_i hk; exact .shorthand hk (by simpa using h)
    · rename_i hk
      split at h
      · rename_i v hv
        split at h
        · rename_i hi; exact .renamed hk hv (by simpa using hi) (by simpa using h)
        · simp at h
      · simp at h
    · rename_i hk
      split at h
      · rename_i l hl; exact .defaulted hk hl (by simpa using h)
      · simp at h
    · simp at h
  · rintro (⟨hk, rfl⟩ | ⟨hk, hv, hi, rfl⟩ | ⟨hk, hl, rfl⟩)
    · simp [memberBindings, hk]
    · simp [memberBindings, hk, hv, hi]
    · simp [memberBindings, hk, hl]

theorem binds_patternBindings (type : Option String) (p : Node) (n : String) :
    Binds (patternBindings (some p) type) n ↔ PatternBinds p n := by
  unfold patternBindings
  by_cases hi : p.kind = .identifier
  · simp only [hi, beq_self_eq_true, if_true, binds_singleton]
    constructor
    · exact .name hi
    · rintro (⟨-, h⟩ | ⟨ho, -⟩)
      · exact h
      · rw [hi] at ho; cases ho
  · by_cases ho : p.kind = .objectPattern
    · simp only [ho, beq_self_eq_true, if_true, binds_flatMap, binds_memberBindings,
        show (Kind.objectPattern == Kind.identifier) = false from rfl, Bool.false_eq_true, if_false]
      constructor
      · rintro ⟨m, hm, hb⟩; exact .member ho hm hb
      · rintro (⟨h, -⟩ | ⟨-, hm, hb⟩)
        · exact absurd h hi
        · exact ⟨_, hm, hb⟩
    · simp only [beq_iff_eq, hi, ho, if_false, binds_nil, false_iff]
      rintro (⟨h, -⟩ | ⟨h, -⟩)
      · exact hi h
      · exact ho h

theorem binds_parameterBindings (g : Node) (n : String) :
    Binds (parameterBindings g) n ↔ ParameterBinds g n := by
  unfold parameterBindings
  cases hs : g.field? .parameter with
  | some p =>
    simp only [binds_singleton]
    constructor
    · exact .single hs
    · rintro (⟨h, hn⟩ | ⟨h, -⟩)
      · rw [hs] at h; cases h; exact hn
      · rw [hs] at h; cases h
  | none =>
    cases hps : g.field? .parameters with
    | none =>
      simp only [binds_nil, false_iff]
      rintro (⟨h, -⟩ | ⟨-, h, -⟩)
      · rw [hs] at h; cases h
      · rw [hps] at h; cases h
    | some ps =>
      simp only [binds_flatMap]
      constructor
      · rintro ⟨p, hp, hb⟩
        split at hb
        · rename_i hk
          cases hpat : p.field? .pattern with
          | none => rw [hpat] at hb; simp [patternBindings] at hb
          | some pattern =>
            rw [hpat, binds_patternBindings] at hb
            exact .listed hs hps hp (by simpa using hk) hpat hb
        · simp at hb
      · rintro (⟨h, -⟩ | ⟨-, h, hp, hk, hpat, hb⟩)
        · rw [hs] at h; cases h
        · rw [hps] at h
          cases h
          exact ⟨_, hp, by simpa [hk, hpat, binds_patternBindings] using hb⟩

theorem binds_declaratorBindings (d : Node) (n : String) :
    Binds (declaratorBindings d) n ↔ ∃ p, d.field? .name = some p ∧ PatternBinds p n := by
  unfold declaratorBindings
  cases hn : d.field? .name with
  | none => simp
  | some p =>
    simp only [Option.some.injEq, exists_eq_left']
    by_cases hi : p.kind = .identifier
    · have hp : PatternBinds p n ↔ p.text = n := by
        rw [← binds_patternBindings none]
        simp [patternBindings, hi]
      rw [hp]
      simp only [hi, beq_self_eq_true, if_true]
      split <;> simp
    · simp only [beq_iff_eq, hi, if_false]
      exact binds_patternBindings _ p n

theorem declarator_ne_of_isFunction {g : Node} (h : g.kind.isFunction = true) :
    ¬ (g.kind == .declarator) = true := by
  intro hk
  rw [beq_iff_eq.1 hk] at h
  cases h

theorem isFunction_of_isFunctionDeclaration {g : Node} (h : isFunctionDeclaration g = true) :
    g.kind.isFunction = true := by
  have hk : g.kind = .functionDeclaration ∨ g.kind = .generatorDeclaration := by
    simpa [isFunctionDeclaration] using h
  rcases hk with hk | hk <;> rw [hk] <;> rfl

/-- **A function binds exactly the names that it registers.** -/
theorem registers_iff (f : Node) (n : String) : Binds (functionBindings f) n ↔ Registers f n := by
  unfold functionBindings
  simp only [binds_append, binds_flatMap, binds_parameterBindings]
  constructor
  · rintro (h | ⟨g, hg, h⟩)
    · exact .parameter h
    · unfold innerBindings at h
      split at h
      · rename_i hk
        obtain ⟨p, hp, hb⟩ := (binds_declaratorBindings g n).1 h
        exact .declared hg (by simpa using hk) hp hb
      · split at h
        · rename_i hd; exact .function hg hd (by simpa using h)
        · rename_i hd
          split at h
          · rename_i hf
            exact .inner hg hf (by simpa using hd) ((binds_parameterBindings g n).1 h)
          · simp at h
  · rintro (h | ⟨hg, hk, hp, hb⟩ | ⟨hg, hd, hn⟩ | ⟨hg, hf, hd, hb⟩)
    · exact Or.inl h
    · refine Or.inr ⟨_, hg, ?_⟩
      simp only [innerBindings, hk, beq_self_eq_true, if_true]
      exact (binds_declaratorBindings _ n).2 ⟨_, hp, hb⟩
    · refine Or.inr ⟨_, hg, ?_⟩
      rw [innerBindings, if_neg (declarator_ne_of_isFunction (isFunction_of_isFunctionDeclaration hd)),
        if_pos hd]
      exact (binds_singleton _ _ _).2 hn
    · refine Or.inr ⟨_, hg, ?_⟩
      rw [innerBindings, if_neg (declarator_ne_of_isFunction hf), if_neg (by simp [hd]), if_pos hf]
      exact (binds_parameterBindings _ n).2 hb

/-! ## Types of names -/

/-- The type of a name of which something is known. -/
def Binding.typeIn (scope : Scope) (limit : Nat) (n : String) : Binding → Option String
  | .annotated type => some type
  | .member type key => some (memberOf type key)
  | .value e => infer scope limit [n] e
  | .function f => functionType (infer scope limit) [n] f
  | .untyped => some any

theorem typeOfName_of_find? {scope : Scope} {n : String} {b : Binding} (h : scope.find? n = some b)
    (limit : Nat) : scope.typeOfName limit n = b.typeIn scope limit n := by
  unfold Scope.typeOfName resolve
  simp only [List.contains_nil, Bool.false_eq_true, if_false, h]
  cases b <;> rfl

/-- A name that a function registers hides that of its module. -/
theorem find?_of_registers {root f : Node} {n : String} (hn : n ≠ "") (h : Registers f n) :
    (Scope.of root (some f)).find? n = (functionBindings f).lookup n := by
  obtain ⟨b, hb⟩ := (binds_iff_lookup _ n).1 ((registers_iff f n).2 h)
  rw [find?_of_function, if_neg hn, hb]
  rfl

/-- Any other name is the module's. -/
theorem find?_of_not_registers {root f : Node} {n : String} (h : ¬ Registers f n) :
    (Scope.of root (some f)).find? n = (Scope.of root none).find? n := by
  have hnone : (functionBindings f).lookup n = none := by
    rw [← registers_iff, binds_iff_lookup] at h
    exact Option.eq_none_iff_forall_not_mem.2 fun b hb => h ⟨b, hb⟩
  rw [find?_of_function, find?_of_module, hnone]
  rfl

/-- Modules that differ in a name only give the same scope to a function that registers it. -/
theorem agree_of_registers {root root' f : Node} {n : String} (h : Registers f n)
    (hsame : ∀ m, m ≠ n → (Scope.of root' none).find? m = (Scope.of root none).find? m) :
    Agree (Scope.of root' (some f)) (Scope.of root (some f)) := by
  intro m
  by_cases hreg : Registers f m
  · by_cases hm : m = ""
    · simp [find?_of_function, hm]
    · rw [find?_of_registers hm hreg, find?_of_registers hm hreg]
  · rw [find?_of_not_registers hreg, find?_of_not_registers hreg]
    exact hsame m fun hmn => hreg (hmn ▸ h)

/-- **A name of a handler hides the module's exactly if the handler registers it.**  A registered name
    has the type of the first binding of it in the handler, and that type is the same whatever the name
    stands for in the module.  A name that is not registered has the type of the module's name, also
    where the handler binds it in some other way. -/
theorem shadows_exactly_registered (root f : Node) (limit : Nat) (n : String) :
    (n ≠ "" → Registers f n →
      (∃ b, (functionBindings f).lookup n = some b ∧
        (Scope.of root (some f)).typeOfName limit n =
          b.typeIn (Scope.of root (some f)) limit n) ∧
      ∀ root', (∀ m, m ≠ n → (Scope.of root' none).find? m = (Scope.of root none).find? m) →
        (Scope.of root' (some f)).typeOfName limit n =
          (Scope.of root (some f)).typeOfName limit n) ∧
    (¬ Registers f n → ∀ b, (Scope.of root none).find? n = some b →
      (Scope.of root (some f)).typeOfName limit n =
        b.typeIn (Scope.of root (some f)) limit n) := by
  refine ⟨fun hn h => ⟨?_, fun root' hsame => ?_⟩, fun h b hb => ?_⟩
  · obtain ⟨b, hb⟩ := (binds_iff_lookup _ n).1 ((registers_iff f n).2 h)
    exact ⟨b, hb, typeOfName_of_find? ((find?_of_registers hn h).trans hb) limit⟩
  · exact typeOfName_agree (agree_of_registers h hsame) limit n
  · exact typeOfName_of_find? ((find?_of_not_registers h).trans hb) limit

/-- A function declaration with a parameter `x`. -/
def nestedHelper : Node :=
  .planted .functionDeclaration none "" [
    .planted .identifier (some .name) "helper" [],
    .planted .parameters (some .parameters) "(x)" [
      .planted .requiredParameter none "x" [.planted .identifier (some .pattern) "x" []]],
    .planted .block (some .body) "" []]

/-- A handler with a parameter `y`, and with the declaration in it. -/
def nestedHandler : Node :=
  .planted .functionDeclaration (some .declaration) "" [
    .planted .identifier (some .name) "GET" [],
    .planted .parameters (some .parameters) "(y)" [
      .planted .requiredParameter none "y" [.planted .identifier (some .pattern) "y" []]],
    .planted .block (some .body) "" [nestedHelper]]

/-- A module with strings `x` and `y` and the handler. -/
def nestedModule : Node :=
  let constant (name : String) : Node :=
    .planted .variableDeclaration none "" [
      .planted .declarator none "" [
        .planted .identifier (some .name) name [],
        .planted .writtenType (some .type) ": string" [.planted .typeText none "string" []]]]
  .planted .program none "" [constant "x", constant "y",
    .planted .exportStatement none "" [nestedHandler]]

/-- The handler's own parameter hides the module's `y`; the parameter of the function declared in it
    does not hide the module's `x`. -/
theorem shadows_exactly_registered_nested :
    (Registers nestedHandler "y" ∧
      (Scope.of nestedModule (some nestedHandler)).typeOfName depthLimit "y" = some any) ∧
    nestedHelper ∈ nestedHandler.descendants ∧ ParameterBinds nestedHelper "x" ∧
    ¬ Registers nestedHandler "x" ∧
    (Scope.of nestedModule (some nestedHandler)).typeOfName depthLimit "x" = some "string" := by
  have hlookup : (functionBindings nestedHandler).lookup "y" = some .untyped := by cbv
  have hy : Registers nestedHandler "y" := by
    rw [← registers_iff, binds_iff_lookup]
    exact ⟨_, hlookup⟩
  have hx : ¬ Registers nestedHandler "x" := by
    have hnone : (functionBindings nestedHandler).lookup "x" = none := by cbv
    rw [← registers_iff, binds_iff_lookup, hnone]
    simp
  have hmem : nestedHelper ∈ nestedHandler.descendants := by
    rw [Node.descendants_eq_inner]
    simp [nestedHandler, Node.planted, Node.inner, Node.children, Node.preorders, Node.preorder,
      Node.preorder_eq nestedHelper]
  have hparameter : ParameterBinds nestedHelper "x" :=
    (binds_parameterBindings _ _).1 ((binds_iff_lookup _ _).2 ⟨.untyped, by cbv⟩)
  have hmodule : (Scope.of nestedModule none).find? "x" = some (.annotated "string") := by cbv
  obtain ⟨⟨b, hb, hyType⟩, -⟩ :=
    (shadows_exactly_registered nestedModule nestedHandler depthLimit "y").1 (by decide) hy
  rw [hlookup] at hb
  cases hb
  exact ⟨⟨hy, hyType⟩, hmem, hparameter, hx,
    (shadows_exactly_registered nestedModule nestedHandler depthLimit "x").2 hx _ hmodule⟩

end RouteAtlas.Typing
