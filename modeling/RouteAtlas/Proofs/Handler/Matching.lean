/-
  RouteAtlas: handlers that match.

  Two modules whose statements match one by one export functions that match under every name.

  * `DeclaresAlike` says of two handlers that they have the same written type, are counterparts that see
    the same names of their own, and ask the query for the same names; `HandlesAlike` says besides that
    their responses are counterparts;
  * `StatementsMatch Entries Handlers s s'`: the names that two statements bind are related, and so are
    the handlers that they declare and export;
  * `implementation?_match`: the implementations of exported names are related, where the statements of
    two modules match;
  * `statementsMatch_of_alike`: statements that read alike match.
-/
import RouteAtlas.Proofs.Handler.Exports
import RouteAtlas.Proofs.Typing.Bindings

namespace RouteAtlas.Handler

open RouteAtlas.Code RouteAtlas.Typing

/-! ## Handlers -/

/-- Two handlers have the same type in scopes that know the same, and ask the query for the same
    names. -/
structure DeclaresAlike (accessors : List String) (Twin : Node → Node → Prop)
    (d d' : FunctionDeclaration) : Prop where
  hasBody : d.hasBody = d'.hasBody
  writtenType : d.writtenType = d'.writtenType
  isFunction : d.function.kind.isFunction = true
  function : Counterpart accessors Twin d.function d'.function
  names : EntriesResemble (Counterpart accessors Twin) (functionBindings d.function)
    (functionBindings d'.function)
  queries : queryParameters accessors d = queryParameters accessors d'

/-- Two handlers respond alike besides. -/
structure HandlesAlike (accessors helpers : List String) (Twin : Node → Node → Prop)
    (d d' : FunctionDeclaration) : Prop extends DeclaresAlike accessors Twin d d' where
  responses : List.Forall₂ (Counterpart accessors Twin) (responses helpers d) (responses helpers d')

/-- Two declarations are handlers that are related, or neither is a function. -/
inductive DeclarationsMatch (Handlers : FunctionDeclaration → FunctionDeclaration → Prop) :
    Declaration → Declaration → Prop where
  | function {d d' : FunctionDeclaration} : Handlers d d' →
      DeclarationsMatch Handlers (.function d) (.function d')
  | other (name name' : String) (node node' : Node) (kind kind' : OtherKind) :
      DeclarationsMatch Handlers (.other name node kind) (.other name' node' kind')

/-- Two lists declare the same names in the same order, with declarations that match. -/
def NamesMatch (Handlers : FunctionDeclaration → FunctionDeclaration → Prop) :
    List (String × Declaration) → List (String × Declaration) → Prop :=
  List.Forall₂ fun e e' => e.1 = e'.1 ∧ DeclarationsMatch Handlers e.2 e'.2

/-- Two statements bind names that are related, and declare and export handlers that are. -/
structure StatementsMatch (Entries : String × Binding → String × Binding → Prop)
    (Handlers : FunctionDeclaration → FunctionDeclaration → Prop) (s s' : Node) : Prop where
  names : List.Forall₂ Entries (statementNames s) (statementNames s')
  declared : NamesMatch Handlers (declaredLocally s) (declaredLocally s')
  exported : NamesMatch Handlers (exportedWithDeclaration s) (exportedWithDeclaration s')
  clauses : (localClauses s).flatMap clauseNames = (localClauses s').flatMap clauseNames

section
variable {Entries Entries' : String × Binding → String × Binding → Prop}
  {H H' : FunctionDeclaration → FunctionDeclaration → Prop} (himp : ∀ d d', H d d' → H' d d')
include himp

theorem DeclarationsMatch.imp {x x' : Declaration} (h : DeclarationsMatch H x x') :
    DeclarationsMatch H' x x' := by
  cases h with
  | function hd => exact .function (himp _ _ hd)
  | other => exact .other ..

theorem NamesMatch.imp {entries entries' : List (String × Declaration)}
    (h : NamesMatch H entries entries') : NamesMatch H' entries entries' :=
  List.Forall₂.imp (fun _ _ he => ⟨he.1, he.2.imp himp⟩) h

theorem StatementsMatch.imp (hentries : ∀ e e', Entries e e' → Entries' e e') {s s' : Node}
    (h : StatementsMatch Entries H s s') : StatementsMatch Entries' H' s s' where
  names := h.names.imp hentries
  declared := h.declared.imp himp
  exported := h.exported.imp himp
  clauses := h.clauses

end

/-! ## Modules whose statements match -/

section
variable {Entries : String × Binding → String × Binding → Prop}
  {Handlers : FunctionDeclaration → FunctionDeclaration → Prop} {root root' : Node}

theorem declaredLocally_comment {c : Node} (h : c.kind = .comment) : declaredLocally c = [] := by
  simp [declaredLocally, declared, h]

theorem exportedWithDeclaration_comment {c : Node} (h : c.kind = .comment) :
    exportedWithDeclaration c = [] := by
  simp [exportedWithDeclaration, h]

theorem localClauses_comment {c : Node} (h : c.kind = .comment) : localClauses c = [] := by
  simp [localClauses, h]

theorem NamesMatch.declarationsOf {entries entries' : List (String × Declaration)}
    (h : NamesMatch Handlers entries entries') (name : String) :
    List.Forall₂ (DeclarationsMatch Handlers) (declarationsOf name entries)
      (declarationsOf name entries') :=
  List.rel_map (fun _ _ he => he.2) (List.rel_filter (fun _ _ he => by simp only [he.1]) h)

theorem implementation?_of_match
    (hbody : ∀ d d', Handlers d d' → d.hasBody = d'.hasBody) {ds ds' : List Declaration}
    (h : List.Forall₂ (DeclarationsMatch Handlers) ds ds') :
    Option.Rel Handlers (implementation? ds) (implementation? ds') := by
  induction h with
  | nil => exact .none
  | cons hd _ ih =>
    cases hd with
    | function hm =>
      unfold implementation?
      rw [← hbody _ _ hm]
      split
      · exact .some hm
      · exact ih
    | other => exact ih

/-- The names that the clauses of a module export. -/
def clausesOf (root : Node) : List (String × String) :=
  root.operands.flatMap fun s => (localClauses s).flatMap clauseNames

theorem clauses_eq (root : Node) :
    (root.named.flatMap localClauses).flatMap clauseNames = clausesOf root := by
  rw [List.flatMap_assoc]
  exact flatMap_operands (fun c hc => by rw [localClauses_comment hc]; rfl) root

variable (h : List.Forall₂ (StatementsMatch Entries Handlers) root.operands root'.operands)
include h

theorem moduleBindings_match :
    List.Forall₂ Entries (moduleBindings root) (moduleBindings root') := by
  rw [moduleBindings_eq, moduleBindings_eq]
  exact List.rel_flatMap h fun _ _ hs => hs.names

theorem localDeclarations_match (name : String) :
    List.Forall₂ (DeclarationsMatch Handlers) (localDeclarations root name)
      (localDeclarations root' name) := by
  unfold localDeclarations
  rw [flatMap_operands (fun _ => declaredLocally_comment),
    flatMap_operands (fun _ => declaredLocally_comment)]
  exact NamesMatch.declarationsOf (List.rel_flatMap h fun _ _ hs => hs.declared) name

theorem directExports_match (name : String) :
    List.Forall₂ (DeclarationsMatch Handlers) (directExports root name)
      (directExports root' name) := by
  unfold directExports
  rw [flatMap_operands (fun _ => exportedWithDeclaration_comment),
    flatMap_operands (fun _ => exportedWithDeclaration_comment)]
  exact NamesMatch.declarationsOf (List.rel_flatMap h fun _ _ hs => hs.exported) name

theorem clausesOf_match : clausesOf root = clausesOf root' := by
  have heach : List.Forall₂ Eq (clausesOf root) (clausesOf root') :=
    List.rel_flatMap h fun _ _ hs => by rw [hs.clauses, List.forall₂_eq_eq_eq]
  rwa [List.forall₂_eq_eq_eq] at heach

/-- **Matching modules export matching functions.** -/
theorem implementation?_match (hbody : ∀ d d', Handlers d d' → d.hasBody = d'.hasBody)
    (name : String) :
    Option.Rel Handlers (implementation? (exportList root name))
      (implementation? (exportList root' name)) := by
  refine implementation?_of_match hbody (List.rel_append (directExports_match h name) ?_)
  unfold clauseExports
  rw [clauses_eq, clauses_eq, clausesOf_match h]
  refine List.rel_flatMap (R := Eq) (List.forall₂_eq_eq_eq ▸ rfl) fun e e' he => ?_
  rw [he]
  exact localDeclarations_match h e'.1

end

/-! ## Handlers that read alike -/

variable {accessors helpers : List String} {Twin : Node → Node → Prop} {n n' s s' : Node}

theorem callArguments_alike (h : ReadsAlike accessors n n') :
    List.Forall₂ (ReadsAlike accessors) (callArguments n) (callArguments n') := by
  unfold callArguments
  obtain ⟨ha, ha'⟩ | ⟨a, a', ha, ha', hrel⟩ := rel_cases (h.field? .arguments) <;>
    simp only [ha, ha']
  · exact .nil
  · exact hrel.operands

theorem isHelperCall_alike (h : ReadsAlike accessors n n') :
    isHelperCall helpers n = isHelperCall helpers n' := by
  unfold isHelperCall
  rw [← h.kind]
  obtain ⟨hc, hc'⟩ | ⟨c, c', hc, hc', hrel⟩ := rel_cases (h.field? .callee) <;>
    simp only [hc, hc']
  rw [← hrel.kind]
  by_cases hk : c.kind = .identifier
  · rw [hrel.text_of_identifier hk]
  · simp [beq_eq_false_iff_ne.2 hk]

theorem responseOf?_alike (h : ReadsAlike accessors n n') :
    Option.Rel (Counterpart accessors Twin) (responseOf? helpers n) (responseOf? helpers n') := by
  have hcall := h.descendants.find? (p := isHelperCall helpers)
    (fun _ _ hm _ => isHelperCall_alike hm) fun r hr => by
      simp [isHelperCall, Node.kind_of_isRemark hr]
  unfold responseOf?
  obtain ⟨hc, hc'⟩ | ⟨c, c', hc, hc', hrel⟩ := rel_cases hcall <;> rw [hc, hc']
  · exact .none
  · have harguments := callArguments_alike hrel
    simp only [Option.bind_some]
    revert harguments
    generalize callArguments c = as
    generalize callArguments c' = as'
    intro harguments
    cases harguments with
    | nil => exact .none
    | cons ha _ => exact .some ha.counterpart

theorem queryName?_alike (h : ReadsAlike accessors n n') (hk : n.kind = .call) :
    queryName? accessors n = queryName? accessors n' := by
  have hw := h.read.wording
  simp only [hk, wording, List.cons.injEq, and_true] at hw
  exact hw.2

theorem responses_alike {d d' : FunctionDeclaration} (h : ReadsAlike accessors d.node d'.node) :
    List.Forall₂ (Counterpart accessors Twin) (responses helpers d) (responses helpers d') :=
  List.rel_filterMap (fun _ _ hr => responseOf?_alike hr) (h.descendantsOf (by decide))

theorem queryParameters_alike {d d' : FunctionDeclaration} (h : ReadsAlike accessors d.node d'.node) :
    queryParameters accessors d = queryParameters accessors d' := by
  have hcalls := (List.forall₂_and_left _ _).2
    ⟨fun c hc => (by simpa using (List.mem_filter.1 hc).2 : c.kind = .call),
      h.descendantsOf (k := .call) (by decide)⟩
  have heach : List.Forall₂ Eq (queryParameters accessors d) (queryParameters accessors d') := by
    refine List.rel_filterMap (fun c c' hc => ?_) hcalls
    rw [← queryName?_alike hc.2 hc.1]
    cases queryName? accessors c with
    | none => exact .none
    | some name => exact .some rfl
  rwa [List.forall₂_eq_eq_eq] at heach

/-- Functions that read alike, declared by nodes that do, are handled alike. -/
theorem handlesAlike {d d' : FunctionDeclaration} (hnode : ReadsAlike accessors d.node d'.node)
    (hfunction : ReadsAlike accessors d.function d'.function) (hf : d.function.kind.isFunction = true)
    (hwritten : d.writtenType = d'.writtenType) : HandlesAlike accessors helpers Twin d d' where
  hasBody := by
    unfold FunctionDeclaration.hasBody
    obtain ⟨hb, hb'⟩ | ⟨b, b', hb, hb', -⟩ := rel_cases (hfunction.field? .body) <;>
      simp [hb, hb']
  writtenType := hwritten
  isFunction := hf
  function := hfunction.counterpart
  names := functionBindings_alike hfunction hf
  queries := queryParameters_alike hnode
  responses := responses_alike hnode

/-! ## Statements that read alike -/

theorem initialValue?_eq (d : Node) :
    initialValue? d = (d.field? .value).map fun value =>
      if value.unwrap.kind == .asExpression then
        (value.unwrap.named.head?.map Node.unwrap).getD value.unwrap
      else value.unwrap := by
  unfold initialValue?
  cases d.field? .value with
  | none => rfl
  | some value =>
    simp only [Option.map_some]
    cases value.unwrap.named <;> rfl

theorem initialValue?_alike (h : ReadsAlike accessors n n') :
    Option.Rel (ReadsAlike accessors) (initialValue? n) (initialValue? n') := by
  rw [initialValue?_eq, initialValue?_eq]
  obtain ⟨hv, hv'⟩ | ⟨v, v', hv, hv', hrel⟩ := rel_cases (h.field? .value) <;> rw [hv, hv']
  · exact .none
  · refine .some ?_
    simp only [← hrel.unwrap.kind]
    split
    · rename_i hk
      obtain ⟨he, he'⟩ | ⟨e, e', he, he', hoperand⟩ :=
        rel_cases (hrel.unwrap.head? (by rw [beq_iff_eq.1 hk]; rfl)) <;> rw [he, he']
      · exact hrel.unwrap
      · exact hoperand.unwrap
    · exact hrel.unwrap

theorem isFunction_of_isFunctionValue {k : Kind} (h : k.isFunctionValue = true) :
    k.isFunction = true := by
  revert h
  cases k <;> decide

theorem declaredVariable_alike (h : ReadsAlike accessors n n') (hk : n.kind = .declarator)
    (name : String) :
    DeclarationsMatch (HandlesAlike accessors helpers Twin) (declaredVariable name n s)
      (declaredVariable name n' s') := by
  have hw := h.read.wording
  simp only [hk, wording, List.cons.injEq, and_true] at hw
  unfold declaredVariable
  obtain ⟨hv, hv'⟩ | ⟨v, v', hv, hv', hrel⟩ := rel_cases (initialValue?_alike h) <;>
    simp only [hv, hv']
  · exact .other ..
  · rw [← hrel.kind]
    split
    · rename_i hvalue
      exact .function (handlesAlike h hrel (isFunction_of_isFunctionValue hvalue) hw)
    · exact .other ..

theorem declaredBy_alike (h : ReadsAlike accessors n n') :
    Option.Rel (fun e e' => e.1 = e'.1 ∧
        DeclarationsMatch (HandlesAlike accessors helpers Twin) e.2 e'.2)
      (declaredBy s n) (declaredBy s' n') := by
  unfold declaredBy
  rw [← h.kind]
  split
  · rename_i hk
    obtain ⟨hn, hn'⟩ | ⟨name, name', hn, hn', hrel⟩ := rel_cases (h.field? .name) <;>
      simp only [hn, hn']
    · exact .none
    · rw [← hrel.kind]
      split
      · rename_i hid
        rw [← hrel.text_of_identifier (beq_iff_eq.1 hid)]
        exact .some ⟨rfl, declaredVariable_alike h (beq_iff_eq.1 hk) _⟩
      · exact .none
  · exact .none

theorem declared_alike (h : ReadsAlike accessors n n') :
    NamesMatch (HandlesAlike accessors helpers Twin) (declared n s) (declared n' s') := by
  have hw := h.read.wording
  unfold declared
  simp only [← h.kind]
  cases hk : n.kind with
  | functionDeclaration | generatorDeclaration =>
    simp only [hk, wording, List.cons.injEq, Option.some.injEq, and_true] at hw
    rw [← hw.2.2]
    exact .cons ⟨rfl, .function (handlesAlike h h (by simp [hk, Kind.isFunction]) rfl)⟩ .nil
  | functionSignature | classDeclaration =>
    simp only [hk, wording, List.cons.injEq, Option.some.injEq, and_true] at hw
    rw [← hw]
    exact .cons ⟨rfl, .other ..⟩ .nil
  | variableDeclaration =>
    exact h.named.filterMap (fun _ _ hd => declaredBy_alike hd) fun r hr => by
      simp [declaredBy, Node.kind_of_isRemark hr]
  | _ => exact .nil

theorem isDefaultExport_alike (h : ReadsAlike accessors n n') : isDefaultExport n = isDefaultExport n' := by
  unfold isDefaultExport
  rw [h.kind, h.hasToken]

theorem exportedWithDeclaration_alike (h : ReadsAlike accessors n n') :
    NamesMatch (HandlesAlike accessors helpers Twin) (exportedWithDeclaration n)
      (exportedWithDeclaration n') := by
  unfold exportedWithDeclaration
  rw [← h.kind, ← isDefaultExport_alike h]
  split
  · obtain ⟨hd, hd'⟩ | ⟨d, d', hd, hd', hrel⟩ := rel_cases (h.field? .declaration) <;>
      simp only [hd, hd']
    · exact .nil
    · exact declared_alike hrel
  · exact .nil

theorem declaredLocally_alike (h : ReadsAlike accessors n n') :
    NamesMatch (HandlesAlike accessors helpers Twin) (declaredLocally n) (declaredLocally n') := by
  unfold declaredLocally
  rw [← h.kind]
  split
  · exact exportedWithDeclaration_alike h
  · exact declared_alike h

theorem localClauses_alike (h : ReadsAlike accessors n n') :
    List.Forall₂ (ReadsAlike accessors) (localClauses n) (localClauses n') := by
  have hmissing : ∀ role, (n.field? role).isNone = (n'.field? role).isNone := by
    intro role
    obtain ⟨hc, hc'⟩ | ⟨c, c', hc, hc', -⟩ := rel_cases (h.field? role) <;>
      simp [hc, hc']
  unfold localClauses
  rw [← h.kind, ← isDefaultExport_alike h, ← hmissing, ← hmissing]
  split
  · exact h.named.filter_forall₂ (fun _ _ hm => by rw [hm.kind]) fun r hr => by
      simp [Node.kind_of_isRemark hr]
  · exact .nil

theorem clauseNames_alike (h : ReadsAlike accessors n n') : clauseNames n = clauseNames n' := by
  have hspecifiers := h.named.filter_forall₂ (p := fun c => c.kind == .exportSpecifier)
    (fun _ _ hm => by rw [hm.kind]) fun r hr => by simp [Node.kind_of_isRemark hr]
  have heach : List.Forall₂ Eq (clauseNames n) (clauseNames n') := by
    refine List.rel_map (fun c c' hc => ?_) ((List.forall₂_and_left _ _).2
      ⟨fun c hc => (by simpa using (List.mem_filter.1 hc).2 : c.kind = .exportSpecifier),
        hspecifiers⟩)
    have hw := hc.2.read.wording
    simp only [hc.1, wording, List.cons.injEq, Option.some.injEq, and_true] at hw
    rw [hw.1, hw.2]
  rwa [List.forall₂_eq_eq_eq] at heach

/-- **Statements that read alike match.** -/
theorem statementsMatch_of_alike (h : ReadsAlike accessors s s') :
    StatementsMatch (fun e e' => e.1 = e'.1 ∧
        Binding.Resembles (Counterpart accessors Twin) e.2 e'.2)
      (HandlesAlike accessors helpers Twin) s s' where
  names := statementNames_alike h
  declared := declaredLocally_alike h
  exported := exportedWithDeclaration_alike h
  clauses := by
    have heach : List.Forall₂ Eq ((localClauses s).flatMap clauseNames)
        ((localClauses s').flatMap clauseNames) :=
      List.rel_flatMap (localClauses_alike h) fun _ _ hc => by
        rw [clauseNames_alike hc, List.forall₂_eq_eq_eq]
    rwa [List.forall₂_eq_eq_eq] at heach

/-! ## Types of handlers that match -/

section
variable {scope scope' : Scope} (hs : Scope.Resembles (Counterpart accessors Twin) scope scope')
  (ht : AreTwins accessors Twin scope) {d d' : FunctionDeclaration} (limit : Nat)
include hs ht

/-- Handlers that are declared alike have the same type. -/
theorem declaredType_match (h : DeclaresAlike accessors Twin d d') :
    declaredType scope limit d = declaredType scope' limit d' := by
  have hfunction : scope.typeOfFunction limit d.function = scope'.typeOfFunction limit d'.function :=
    answer_counterpart hs ht limit [] (.functionType h.isFunction h.function)
  unfold declaredType
  rw [h.writtenType, hfunction]

/-- Responses that are counterparts have the same types. -/
theorem responseType_match
    (h : List.Forall₂ (Counterpart accessors Twin) (responses helpers d) (responses helpers d')) :
    responseType scope limit helpers d = responseType scope' limit helpers d' := by
  unfold responseType
  revert h
  generalize responses helpers d = es
  generalize responses helpers d' = es'
  intro h
  cases h with
  | nil => rfl
  | cons he hes =>
    have htypes := mapM_congr₂ ((List.Forall₂.cons he hes).imp fun e e' he =>
      answer_counterpart hs ht limit [] (.infer he))
    exact congrArg (Option.map fun types => some (joined types)) htypes

end

/-- Responses have the type of other ones if each of them has. -/
theorem responseType_mono₂ {scope scope' : Scope} {d d' : FunctionDeclaration} {limit limit' : Nat}
    (h : List.Forall₂ (fun e e' => ∀ t, scope.typeOf limit e = some t → scope'.typeOf limit' e' = some t)
      (responses helpers d) (responses helpers d')) {type : Option String}
    (htype : responseType scope limit helpers d = some type) :
    responseType scope' limit' helpers d' = some type := by
  unfold responseType at htype ⊢
  revert h htype
  generalize responses helpers d = es
  generalize responses helpers d' = es'
  intro h htype
  cases h with
  | nil => exact htype
  | cons he hes =>
    obtain ⟨types, htypes, hjoined⟩ := Option.map_eq_some_iff.1 htype
    exact Option.map_eq_some_iff.2 ⟨types, mapM_mono₂ (.cons he hes) htypes, hjoined⟩

end RouteAtlas.Handler
