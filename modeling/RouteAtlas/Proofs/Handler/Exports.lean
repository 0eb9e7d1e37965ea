/-
  RouteAtlas: what a module exports as functions.

  * `exportList root name` are the declarations that a name is exported with, read off the statements
    of the module: those exported with their declaration, in the order of the statements, and then
    those that clauses name.  It is what `exports` gathers (`exports_of`);
  * `ExportsFunction root name` says that a module exports a name as a function with a body, and
    `exportsFunction_iff` that this is when the export list has an implementation;
  * `implementation?_eq_some_iff`: the implementation is the first function with a body;
  * `exportList_standsIn`: the functions of an export list stand in the module.
-/
import Mathlib.Logic.Relation
import RouteAtlas.Handler.Declaration
import RouteAtlas.Proofs.Code.Tree

namespace RouteAtlas.Handler

open RouteAtlas.Code RouteAtlas.Typing Relation

/-! ## Export lists -/

/-- The declarations that some entries have for a name. -/
def declarationsOf (name : String) (entries : List (String × Declaration)) : List Declaration :=
  (entries.filter fun e => e.1 == name).map Prod.snd

/-- The declarations of a name in the statements of a module. -/
def localDeclarations (root : Node) (name : String) : List Declaration :=
  declarationsOf name (root.named.flatMap declaredLocally)

/-- The declarations that export a name themselves. -/
def directExports (root : Node) (name : String) : List Declaration :=
  declarationsOf name (root.named.flatMap exportedWithDeclaration)

/-- The declarations that clauses export under a name. -/
def clauseExports (root : Node) (name : String) : List Declaration :=
  (((root.named.flatMap localClauses).flatMap clauseNames).filter fun e => e.2 == name).flatMap
    fun e => localDeclarations root e.1

/-- The declarations that a module exports under a name. -/
def exportList (root : Node) (name : String) : List Declaration :=
  directExports root name ++ clauseExports root name

theorem Declarations.of_cons (entry : String × List Declaration) (ds : Declarations)
    (name : String) :
    of (entry :: ds) name = if name = entry.1 then entry.2 else of ds name := by
  unfold of
  rw [List.lookup_cons]
  by_cases h : name = entry.1
  · simp [h]
  · simp [h, beq_eq_false_iff_ne.2 h]

theorem Declarations.of_add (ds : Declarations) (name other : String) (more : List Declaration) :
    (ds.add name more).of other = if other = name then ds.of other ++ more else ds.of other := by
  induction ds with
  | nil => rw [add, of_cons]; simp [of]
  | cons entry ds ih =>
    obtain ⟨n, old⟩ := entry
    unfold add
    by_cases hn : n = name
    · subst hn
      simp only [beq_self_eq_true, if_true, of_cons]
      split <;> rfl
    · simp only [beq_iff_eq, hn, if_false, of_cons, ih]
      by_cases ho : other = n
      · simp [ho, hn]
      · simp [ho]

theorem Declarations.of_foldl_single (name : String) :
    ∀ (entries : List (String × Declaration)) (ds : Declarations),
      (entries.foldl (fun ds entry => ds.add entry.1 [entry.2]) ds).of name =
        ds.of name ++ declarationsOf name entries
  | [], ds => by simp [declarationsOf]
  | entry :: entries, ds => by
    rw [List.foldl_cons, of_foldl_single name entries, of_add]
    by_cases h : name = entry.1
    · simp [declarationsOf, h]
    · simp [declarationsOf, h, Ne.symm h]

theorem gathered_of (entries : List (String × Declaration)) (name : String) :
    (gathered entries).of name = declarationsOf name entries := by
  rw [gathered, Declarations.of_foldl_single]; rfl

theorem Declarations.of_foldl_clauses (find : String → List Declaration) (name : String) :
    ∀ (clauses : List (String × String)) (ds : Declarations),
      (clauses.foldl (fun ds entry => ds.add entry.2 (find entry.1)) ds).of name =
        ds.of name ++ (clauses.filter fun e => e.2 == name).flatMap fun e => find e.1
  | [], ds => by simp
  | entry :: clauses, ds => by
    rw [List.foldl_cons, of_foldl_clauses find name clauses, of_add]
    by_cases h : name = entry.2
    · simp [h]
    · simp [h, Ne.symm h]

/-- **The two passes over a module gather the export list of every name.** -/
theorem exports_of (root : Node) (name : String) : (exports root).of name = exportList root name := by
  unfold exports
  simp only
  rw [Declarations.of_foldl_clauses fun n => (gathered (root.named.flatMap declaredLocally)).of n,
    gathered_of]
  simp only [gathered_of]
  rfl

/-! ## Implementations -/

/-- A declaration is a function with a body. -/
def Declaration.Implements (x : Declaration) : Prop :=
  ∃ d, x = .function d ∧ d.hasBody = true

/-- The implementation is the first function with a body. -/
theorem implementation?_eq_some_iff (ds : List Declaration) (d : FunctionDeclaration) :
    implementation? ds = some d ↔ ∃ before after, ds = before ++ .function d :: after ∧
      d.hasBody = true ∧ ∀ x ∈ before, ¬ x.Implements := by
  induction ds with
  | nil => simp [implementation?]
  | cons x ds ih =>
    by_cases hx : x.Implements
    · obtain ⟨d', rfl, hb⟩ := hx
      simp only [implementation?, hb, if_true, Option.some.injEq]
      constructor
      · rintro rfl; exact ⟨[], ds, rfl, hb, by simp⟩
      · rintro ⟨before, after, heq, -, hall⟩
        cases before with
        | nil => cases heq; rfl
        | cons y before =>
          cases heq
          exact absurd ⟨d', rfl, hb⟩ (hall _ (List.mem_cons_self ..))
    · have hskip : implementation? (x :: ds) = implementation? ds := by
        cases x with
        | other => rfl
        | function d' =>
          have : d'.hasBody = false := by
            rw [← Bool.not_eq_true]; exact fun h => hx ⟨d', rfl, h⟩
          simp [implementation?, this]
      rw [hskip, ih]
      constructor
      · rintro ⟨before, after, rfl, hb, hall⟩
        exact ⟨x :: before, after, rfl, hb, by simpa [hx] using hall⟩
      · rintro ⟨before, after, heq, hb, hall⟩
        cases before with
        | nil => cases heq; exact absurd ⟨d, rfl, hb⟩ hx
        | cons y before =>
          cases heq
          exact ⟨before, after, rfl, hb, fun z hz => hall z (List.mem_cons_of_mem _ hz)⟩

theorem implementation?_isSome_iff (ds : List Declaration) :
    (implementation? ds).isSome ↔ ∃ x ∈ ds, x.Implements := by
  induction ds with
  | nil => simp [implementation?]
  | cons x ds ih =>
    cases x with
    | other => simpa [implementation?, Declaration.Implements] using ih
    | function d => cases h : d.hasBody <;> simp [implementation?, h, ih, Declaration.Implements]

/-! ## Functions in wrappers -/

/-- An expression stands in a wrapper, with no comment in front of it. -/
def Wraps (n e : Node) : Prop :=
  n.kind.isWrapper = true ∧ n.named.head? = some e ∧ e.isComment = false

/-- An expression stands in wrappers, then possibly in an `as`, and in wrappers again. -/
inductive Holds (value e : Node) : Prop where
  | bare : ReflTransGen Wraps value e → Holds value e
  | asserted {a inner : Node} : ReflTransGen Wraps value a → a.kind = .asExpression →
      a.named.head? = some inner → inner.isComment = false → ReflTransGen Wraps inner e →
      Holds value e

theorem unwrap_of_wraps {n e : Node} (h : ReflTransGen Wraps n e) : n.unwrap = e.unwrap := by
  induction h with
  | refl => rfl
  | tail _ hw ih => rw [ih, Node.unwrap_of_head hw.1 hw.2.1]

theorem isComment_of_unwrap {e : Node} (h : e.unwrap.isComment = false) : e.isComment = false := by
  cases hc : e.isComment with
  | false => rfl
  | true =>
    have hkind : e.kind = .comment := by simpa [Node.isComment] using hc
    rw [Node.unwrap_of_not_isWrapper (by rw [hkind]; rfl), hc] at h
    cases h

/-- What unwrapping leaves stands in wrappers, unless it is a comment. -/
theorem wraps_unwrap (n : Node) (h : n.unwrap.isComment = false) :
    ReflTransGen Wraps n n.unwrap := by
  induction n using Node.unwrap.induct with
  | case1 n hw hnil => rw [Node.unwrap, if_pos hw, hnil]
  | case2 n hw c cs hn ih =>
    have hhead : n.named.head? = some c := by simp [hn]
    rw [Node.unwrap_of_head hw hhead] at h ⊢
    exact ReflTransGen.head ⟨hw, hhead, isComment_of_unwrap h⟩ (ih h)
  | case3 n hw => rw [Node.unwrap_of_not_isWrapper (by simpa using hw)]

theorem isFunctionValue_plain {e : Node} (h : e.kind.isFunctionValue = true) :
    e.kind.isWrapper = false ∧ e.isComment = false ∧ e.kind ≠ .asExpression := by
  unfold Node.isComment
  cases hk : e.kind <;> simp_all [Kind.isFunctionValue, Kind.isWrapper]

theorem wraps_iff_unwrap {n e : Node} (h : e.kind.isFunctionValue = true) :
    ReflTransGen Wraps n e ↔ n.unwrap = e := by
  obtain ⟨hw, hc, -⟩ := isFunctionValue_plain h
  constructor
  · intro hn; rw [unwrap_of_wraps hn, Node.unwrap_of_not_isWrapper hw]
  · rintro rfl; exact wraps_unwrap n hc

/-- A variable starts with a function exactly if its initial value holds the function. -/
theorem initialValue?_eq_some_iff {declarator f : Node} (h : f.kind.isFunctionValue = true) :
    initialValue? declarator = some f ↔
      ∃ value, declarator.field? .value = some value ∧ Holds value f := by
  unfold initialValue?
  cases hv : declarator.field? .value with
  | none => simp
  | some value =>
    simp only [Option.map_some, Option.some.injEq, exists_eq_left']
    obtain ⟨-, hcf, hne⟩ := isFunctionValue_plain h
    by_cases ha : value.unwrap.kind = .asExpression
    · have hnw : value.unwrap ≠ f := fun he => hne (he ▸ ha)
      have hc : value.unwrap.isComment = false := by simp [Node.isComment, ha]
      simp only [ha, beq_self_eq_true, if_true]
      constructor
      · intro hf
        split at hf
        · rename_i e es hn
          exact .asserted (wraps_unwrap value hc) ha (by simp [hn])
            (isComment_of_unwrap (by rw [hf]; exact hcf)) ((wraps_iff_unwrap h).2 hf)
        · exact absurd hf hnw
      · intro hholds
        cases hholds with
        | bare hb => exact absurd ((wraps_iff_unwrap h).1 hb) hnw
        | @asserted a inner hwa hka hhead _ hin =>
          have haw : a.kind.isWrapper = false := by rw [hka]; rfl
          rw [unwrap_of_wraps hwa, Node.unwrap_of_not_isWrapper haw]
          have := (wraps_iff_unwrap h).1 hin
          split
          · rename_i e es hn
            simp only [hn, List.head?_cons, Option.some.injEq] at hhead
            rw [hhead, this]
          · rename_i hn; simp [hn] at hhead
    · simp only [beq_iff_eq, ha, if_false]
      constructor
      · intro hf; exact .bare ((wraps_iff_unwrap h).2 hf)
      · intro hholds
        cases hholds with
        | bare hb => exact (wraps_iff_unwrap h).1 hb
        | @asserted a inner hwa hka =>
          have haw : a.kind.isWrapper = false := by rw [hka]; rfl
          rw [unwrap_of_wraps hwa, Node.unwrap_of_not_isWrapper haw] at ha
          exact absurd hka ha

/-! ## Exported functions -/

/-- A declaration declares a name as a function with a body. -/
inductive DeclaresFunction (d : Node) (name : String) : Prop where
  | ofFunction : isFunctionDeclaration d = true → d.fieldText .name = name →
      (d.field? .body).isSome → DeclaresFunction d name
  | ofVariable {part id value f : Node} : d.kind = .variableDeclaration → part ∈ d.named →
      part.kind = .declarator → part.field? .name = some id → id.kind = .identifier →
      id.text = name → part.field? .value = some value → Holds value f →
      f.kind.isFunctionValue = true → (f.field? .body).isSome → DeclaresFunction d name

/-- The declaration in a statement of a module; a default export has none that counts. -/
def declarationIn (s : Node) : Option Node :=
  if s.kind == .exportStatement then
    if s.hasToken "default" then none else s.field? .declaration
  else some s

/-- A statement exports names of the module itself: it has neither a declaration nor a source, and
    is no default export. -/
def IsLocalExport (s : Node) : Prop :=
  s.kind = .exportStatement ∧ s.hasToken "default" = false ∧ s.field? .declaration = none ∧
    s.field? .source = none

/-- The name that a specifier exports something under. -/
def exportedName (specifier : Node) : String :=
  ((specifier.field? .newName).map Node.text).getD (specifier.fieldText .name)

/-- A module exports a name as a function with a body. -/
inductive ExportsFunction (root : Node) (name : String) : Prop where
  /-- An export statement declares it. -/
  | direct {s d : Node} : s ∈ root.named → s.kind = .exportStatement →
      s.hasToken "default" = false → s.field? .declaration = some d → DeclaresFunction d name →
      ExportsFunction root name
  /-- A clause names a function that a statement declares. -/
  | clause {s clause specifier s' d : Node} : s ∈ root.named → IsLocalExport s →
      clause ∈ s.named → clause.kind = .exportClause → specifier ∈ clause.named →
      specifier.kind = .exportSpecifier → exportedName specifier = name → s' ∈ root.named →
      declarationIn s' = some d → DeclaresFunction d (specifier.fieldText .name) →
      ExportsFunction root name

theorem mem_declarationsOf {name : String} {entries : List (String × Declaration)}
    {x : Declaration} : x ∈ declarationsOf name entries ↔ (name, x) ∈ entries := by
  simp [declarationsOf]

/-- What a declared variable is, if it is a function with a body. -/
theorem declaredVariable_implements_iff (name : String) (part statement : Node) :
    (declaredVariable name part statement).Implements ↔
      ∃ f, initialValue? part = some f ∧ f.kind.isFunctionValue = true ∧
        (f.field? .body).isSome := by
  unfold declaredVariable Declaration.Implements
  cases initialValue? part with
  | none => simp
  | some f =>
    cases hf : f.kind.isFunctionValue <;>
      simp [hf, FunctionDeclaration.hasBody]

theorem declaredBy_eq_some_iff {statement part : Node} {name : String} {x : Declaration} :
    declaredBy statement part = some (name, x) ↔ part.kind = .declarator ∧
      ∃ id, part.field? .name = some id ∧ id.kind = .identifier ∧ id.text = name ∧
        declaredVariable name part statement = x := by
  unfold declaredBy
  by_cases hp : part.kind = .declarator
  · cases hn : part.field? .name with
    | none => simp [hp]
    | some id =>
      by_cases hi : id.kind = .identifier
      · simp only [hp, hi, beq_self_eq_true, if_true, Option.some.injEq, Prod.mk.injEq, true_and,
          exists_eq_left']
        constructor
        · rintro ⟨rfl, h⟩; exact ⟨rfl, h⟩
        · rintro ⟨rfl, h⟩; exact ⟨rfl, h⟩
      · simp [hp, hi]
  · simp [hp]

/-- A declaration introduces a function with a body under a name exactly if it declares one. -/
theorem declared_implements_iff (d statement : Node) (name : String) :
    (∃ x, (name, x) ∈ declared d statement ∧ x.Implements) ↔ DeclaresFunction d name := by
  constructor
  · rintro ⟨x, hx, himpl⟩
    unfold declared at hx
    have hfunction : isFunctionDeclaration d = true →
        (name, x) = (d.fieldText .name, .function ⟨d.fieldText .name, d, d, statement, none⟩) →
        DeclaresFunction d name := by
      intro hk heq
      cases heq
      obtain ⟨fd, hfd, hb⟩ := himpl
      cases hfd
      exact .ofFunction hk rfl hb
    split at hx
    · rename_i hk; exact hfunction (by simp [isFunctionDeclaration, hk]) (List.mem_singleton.1 hx)
    · rename_i hk; exact hfunction (by simp [isFunctionDeclaration, hk]) (List.mem_singleton.1 hx)
    · cases List.mem_singleton.1 hx
      obtain ⟨fd, hfd, -⟩ := himpl; cases hfd
    · rename_i hk
      obtain ⟨part, hpart, hby⟩ := List.mem_filterMap.1 hx
      obtain ⟨hp, id, hn, hi, htext, rfl⟩ := declaredBy_eq_some_iff.1 hby
      obtain ⟨f, hf, hv, hb⟩ := (declaredVariable_implements_iff _ _ _).1 himpl
      obtain ⟨value, hvalue, hholds⟩ := (initialValue?_eq_some_iff hv).1 hf
      exact .ofVariable hk hpart hp hn hi htext hvalue hholds hv hb
    · cases List.mem_singleton.1 hx
      obtain ⟨fd, hfd, -⟩ := himpl; cases hfd
    · cases hx
  · intro h
    cases h with
    | ofFunction hk hname hb =>
      refine ⟨.function ⟨name, d, d, statement, none⟩, ?_, _, rfl, hb⟩
      have hk' : d.kind = .functionDeclaration ∨ d.kind = .generatorDeclaration := by
        simpa [isFunctionDeclaration] using hk
      rcases hk' with hk' | hk' <;> simp [declared, hk', hname]
    | @ofVariable part id value f hk hpart hp hn hi htext hvalue hholds hv hb =>
      refine ⟨declaredVariable name part statement, ?_,
        (declaredVariable_implements_iff _ _ _).2
          ⟨f, (initialValue?_eq_some_iff hv).2 ⟨value, hvalue, hholds⟩, hv, hb⟩⟩
      simp only [declared, hk, List.mem_filterMap]
      exact ⟨part, hpart, declaredBy_eq_some_iff.2 ⟨hp, id, hn, hi, htext, rfl⟩⟩

theorem mem_exportedWithDeclaration_iff {s : Node} {entry : String × Declaration} :
    entry ∈ exportedWithDeclaration s ↔ s.kind = .exportStatement ∧
      s.hasToken "default" = false ∧ ∃ d, s.field? .declaration = some d ∧ entry ∈ declared d s := by
  unfold exportedWithDeclaration isDefaultExport
  by_cases hk : s.kind = .exportStatement
  · cases s.hasToken "default" with
    | true => simp [hk]
    | false => cases s.field? .declaration <;> simp [hk]
  · simp [hk]

theorem mem_declaredLocally_iff {s : Node} {entry : String × Declaration} :
    entry ∈ declaredLocally s ↔ ∃ d, declarationIn s = some d ∧ entry ∈ declared d s := by
  unfold declaredLocally declarationIn
  by_cases hk : s.kind = .exportStatement
  · simp only [hk, beq_self_eq_true, if_true, mem_exportedWithDeclaration_iff, true_and]
    cases s.hasToken "default" <;> simp
  · simp [hk]

theorem mem_localClauses_iff {s clause : Node} :
    clause ∈ localClauses s ↔ IsLocalExport s ∧ clause ∈ s.named ∧ clause.kind = .exportClause := by
  unfold localClauses isDefaultExport IsLocalExport
  by_cases hk : s.kind = .exportStatement
  · cases s.hasToken "default" <;> cases s.field? .declaration <;> cases s.field? .source <;>
      simp [hk]
  · simp [hk]

theorem mem_clauseNames_iff {clause : Node} {entry : String × String} :
    entry ∈ clauseNames clause ↔ ∃ specifier ∈ clause.named,
      specifier.kind = .exportSpecifier ∧
        entry = (specifier.fieldText .name, exportedName specifier) := by
  unfold clauseNames
  simp only [List.mem_map, List.mem_filter, beq_iff_eq]
  constructor
  · rintro ⟨specifier, ⟨hmem, hk⟩, rfl⟩; exact ⟨specifier, hmem, hk, rfl⟩
  · rintro ⟨specifier, hmem, hk, rfl⟩; exact ⟨specifier, ⟨hmem, hk⟩, rfl⟩

/-- **A module exports a name as a function with a body exactly if the export list of the name has
    one.** -/
theorem exportsFunction_iff (root : Node) (name : String) :
    (∃ x ∈ exportList root name, x.Implements) ↔ ExportsFunction root name := by
  simp only [exportList, directExports, clauseExports, localDeclarations, List.mem_append,
    mem_declarationsOf, List.mem_flatMap, List.mem_filter, beq_iff_eq]
  constructor
  · rintro ⟨x, ⟨s, hs, hx⟩ | ⟨⟨n, m⟩, ⟨⟨clause, ⟨s, hs, hc⟩, he⟩, hm⟩, s', hs', hx⟩, himpl⟩
    · obtain ⟨hk, hdef, d, hd, hx⟩ := mem_exportedWithDeclaration_iff.1 hx
      exact .direct hs hk hdef hd ((declared_implements_iff d s name).1 ⟨x, hx, himpl⟩)
    · obtain ⟨hlocal, hc, hck⟩ := mem_localClauses_iff.1 hc
      obtain ⟨specifier, hsp, hspk, heq⟩ := mem_clauseNames_iff.1 he
      cases heq
      obtain ⟨d, hd, hx⟩ := mem_declaredLocally_iff.1 hx
      exact .clause hs hlocal hc hck hsp hspk hm hs' hd
        ((declared_implements_iff d s' _).1 ⟨x, hx, himpl⟩)
  · intro h
    cases h with
    | @direct s d hs hk hdef hd hdecl =>
      obtain ⟨x, hx, himpl⟩ := (declared_implements_iff d s name).2 hdecl
      exact ⟨x, Or.inl ⟨s, hs, mem_exportedWithDeclaration_iff.2 ⟨hk, hdef, d, hd, hx⟩⟩, himpl⟩
    | @clause s clause specifier s' d hs hlocal hc hck hsp hspk hm hs' hd hdecl =>
      obtain ⟨x, hx, himpl⟩ := (declared_implements_iff d s' _).2 hdecl
      exact ⟨x, Or.inr ⟨(specifier.fieldText .name, exportedName specifier),
        ⟨⟨clause, ⟨s, hs, mem_localClauses_iff.2 ⟨hlocal, hc, hck⟩⟩,
          mem_clauseNames_iff.2 ⟨specifier, hsp, hspk, rfl⟩⟩, hm⟩,
        s', hs', mem_declaredLocally_iff.2 ⟨d, hd, hx⟩⟩, himpl⟩

/-! ## Where functions stand -/

/-- A declaration stands in a module: if it is of a function, both are nodes of the module. -/
def Declaration.StandsIn (root : Node) (x : Declaration) : Prop :=
  ∀ d, x = .function d → d.node ∈ root.preorder ∧ d.function ∈ root.preorder

theorem initialValue?_mem_preorder {part f : Node} (h : initialValue? part = some f) :
    f ∈ part.preorder := by
  obtain ⟨value, hvalue, hf⟩ := Option.map_eq_some_iff.1 h
  have hv : value.unwrap ∈ part.preorder :=
    Node.mem_preorder_trans value.unwrap_mem_preorder
      (Node.mem_preorder_of_mem_children (Node.mem_children_of_field? hvalue))
  simp only at hf
  split at hf
  · split at hf
    · rename_i e es hes
      have he : e ∈ value.unwrap.children := Node.mem_children_of_mem_named (by simp [hes])
      rw [← hf]
      exact Node.mem_preorder_trans e.unwrap_mem_preorder (Node.child_mem_preorder hv he)
    · rwa [← hf]
  · rwa [← hf]

theorem declared_standsIn {root d statement : Node} (hd : d ∈ root.preorder)
    {entry : String × Declaration} (h : entry ∈ declared d statement) : entry.2.StandsIn root := by
  rintro fd hfd
  unfold declared at h
  split at h
  · cases List.mem_singleton.1 h; cases hfd; exact ⟨hd, hd⟩
  · cases List.mem_singleton.1 h; cases hfd; exact ⟨hd, hd⟩
  · cases List.mem_singleton.1 h; cases hfd
  · obtain ⟨part, hpart, hby⟩ := List.mem_filterMap.1 h
    obtain ⟨-, id, -, -, -, hx⟩ := declaredBy_eq_some_iff.1 hby
    have hp : part ∈ root.preorder :=
      Node.child_mem_preorder hd (Node.mem_children_of_mem_named hpart)
    rw [← hx] at hfd
    unfold declaredVariable at hfd
    split at hfd
    · rename_i value hvalue
      split at hfd
      · cases hfd; exact ⟨hp, Node.mem_preorder_trans (initialValue?_mem_preorder hvalue) hp⟩
      · cases hfd
    · cases hfd
  · cases List.mem_singleton.1 h; cases hfd
  · cases h

/-- The functions that a module exports stand in it. -/
theorem exportList_standsIn {root : Node} {name : String} {x : Declaration}
    (h : x ∈ exportList root name) : x.StandsIn root := by
  have hstatement : ∀ s ∈ root.named, s ∈ root.preorder := fun s hs =>
    Node.mem_preorder_of_mem_children (Node.mem_children_of_mem_named hs)
  simp only [exportList, directExports, clauseExports, localDeclarations, List.mem_append,
    mem_declarationsOf, List.mem_flatMap, List.mem_filter] at h
  obtain ⟨s, hs, hx⟩ | ⟨entry, -, s, hs, hx⟩ := h
  · obtain ⟨-, -, d, hd, hx⟩ := mem_exportedWithDeclaration_iff.1 hx
    exact declared_standsIn
      (Node.child_mem_preorder (hstatement s hs) (Node.mem_children_of_field? hd)) hx
  · obtain ⟨d, hd, hx⟩ := mem_declaredLocally_iff.1 hx
    unfold declarationIn at hd
    split at hd
    · split at hd
      · cases hd
      · exact declared_standsIn
          (Node.child_mem_preorder (hstatement s hs) (Node.mem_children_of_field? hd)) hx
    · cases hd
      exact declared_standsIn (hstatement s hs) hx

end RouteAtlas.Handler
