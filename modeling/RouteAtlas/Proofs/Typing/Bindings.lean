/-
  RouteAtlas: names of trees that read alike.

  Trees that read alike bind the same names in the same order, to counterparts.

  * `functionBindings_alike` are the names of a function, `statementNames_alike` those of a statement;
  * `statementNames` are the names that a statement binds, also one that exports a declaration, and
    `moduleBindings_eq` says that those of a module are the names of its statements.
-/
import RouteAtlas.Proofs.Typing.Counterpart

namespace RouteAtlas.Typing

open RouteAtlas.Code RouteAtlas.Text

/-- What comments add nothing to is collected from the operands. -/
theorem flatMap_operands {β : Type} {f : Node → List β} (hf : ∀ c : Node, c.kind = .comment → f c = [])
    (n : Node) : n.named.flatMap f = n.operands.flatMap f := by
  unfold Node.operands
  induction n.named with
  | nil => rfl
  | cons c cs ih =>
    rw [List.flatMap_cons, List.filter_cons, ih]
    cases hc : c.isComment with
    | false => simp
    | true => simp [hf c (by simpa [Node.isComment] using hc)]

variable {accessors : List String} {Twin : Node → Node → Prop} {n n' : Node}

/-! ## Patterns -/

theorem entries_nil : EntriesResemble (Counterpart accessors Twin) [] [] :=
  .nil

theorem entries_single {name : String} {b b' : Binding}
    (h : Binding.Resembles (Counterpart accessors Twin) b b') :
    EntriesResemble (Counterpart accessors Twin) [(name, b)] [(name, b')] :=
  .cons ⟨rfl, h⟩ .nil

theorem resembles_memberBinding (type : Option String) (key : String) :
    Binding.Resembles (Counterpart accessors Twin) (memberBinding type key)
      (memberBinding type key) := by
  cases type with
  | none => exact .untyped
  | some t => exact .member t key

theorem resembles_plainBinding (type : Option String) :
    Binding.Resembles (Counterpart accessors Twin) (plainBinding type) (plainBinding type) := by
  cases type with
  | none => exact .untyped
  | some t => exact .annotated t

theorem memberBindings_alike (h : ReadsAlike accessors n n') (type : Option String) :
    EntriesResemble (Counterpart accessors Twin) (memberBindings type n) (memberBindings type n') := by
  have hw := h.read.wording
  unfold memberBindings
  rw [← h.kind]
  cases hk : n.kind with
  | shorthandPattern =>
    simp only [hk, wording, List.cons.injEq, Option.some.injEq, and_true] at hw
    rw [← hw]
    exact entries_single (resembles_memberBinding type _)
  | pairPattern =>
    simp only [hk, wording, List.cons.injEq, Option.some.injEq, and_true] at hw
    rw [← hw]
    obtain ⟨hv, hv'⟩ | ⟨v, v', hv, hv', hrel⟩ := rel_cases (h.field? .value) <;> simp only [hv, hv']
    · exact entries_nil
    · rw [← hrel.kind]
      split
      · rename_i hidentifier
        rw [← hrel.text_of_identifier (beq_iff_eq.1 hidentifier)]
        exact entries_single (resembles_memberBinding type _)
      · exact entries_nil
  | defaultPattern =>
    simp only [hk, wording, List.cons.injEq, Option.some.injEq, and_true] at hw
    obtain ⟨hl, hl'⟩ | ⟨l, l', hl, hl', hrel⟩ := rel_cases (h.field? .left) <;> simp only [hl, hl']
    · exact entries_nil
    · simp only [Node.fieldText, hl, hl', Option.map_some, Option.getD_some] at hw
      rw [← hw]
      exact entries_single (resembles_memberBinding type _)
  | _ => exact entries_nil

theorem memberBindings_comment {c : Node} (hc : c.isRemark = true) (type : Option String) :
    memberBindings type c = [] := by
  simp [memberBindings, Node.kind_of_isRemark hc]

theorem patternBindings_alike {p p' : Option Node} (h : Option.Rel (ReadsAlike accessors) p p')
    (type : Option String) :
    EntriesResemble (Counterpart accessors Twin) (patternBindings p type)
      (patternBindings p' type) := by
  cases h with
  | none => exact entries_nil
  | @some p p' hp =>
    unfold patternBindings
    simp only [← hp.kind]
    split
    · rename_i hidentifier
      rw [← hp.text_of_identifier (beq_iff_eq.1 hidentifier)]
      exact entries_single (resembles_plainBinding type)
    · split
      · exact hp.named.flatMap (fun _ _ hm => memberBindings_alike hm type) fun r hr =>
          memberBindings_comment hr type
      · exact entries_nil

/-! ## Declarations and parameters -/

theorem declaratorBindings_alike (h : ReadsAlike accessors n n') (hk : n.kind = .declarator) :
    EntriesResemble (Counterpart accessors Twin) (declaratorBindings n) (declaratorBindings n') := by
  have hw := h.read.wording
  simp only [hk, wording, List.cons.injEq, and_true] at hw
  unfold declaratorBindings
  rw [← hw]
  obtain ⟨hn, hn'⟩ | ⟨name, name', hn, hn', hname⟩ := rel_cases (h.field? .name) <;>
    simp only [hn, hn']
  · exact entries_nil
  · rw [← hname.kind]
    split
    · rename_i hidentifier
      rw [← hname.text_of_identifier (beq_iff_eq.1 hidentifier)]
      cases typeTextOf (n.field? .type) with
      | some t => exact entries_single (.annotated t)
      | none =>
        obtain ⟨hv, hv'⟩ | ⟨v, v', hv, hv', hrel⟩ := rel_cases (h.field? .value) <;>
          simp only [hv, hv']
        · exact entries_single .untyped
        · exact entries_single (.value hrel.counterpart)
    · exact patternBindings_alike (.some hname) _

/-- What one parameter in a list binds. -/
theorem listedBindings_alike (h : ReadsAlike accessors n n') :
    EntriesResemble (Counterpart accessors Twin)
      (if n.kind == .requiredParameter || n.kind == .optionalParameter then
        patternBindings (n.field? .pattern) (typeTextOf (n.field? .type)) else [])
      (if n'.kind == .requiredParameter || n'.kind == .optionalParameter then
        patternBindings (n'.field? .pattern) (typeTextOf (n'.field? .type)) else []) := by
  have hw := h.read.wording
  rw [← h.kind]
  split
  · rename_i hk
    have htype : typeTextOf (n.field? .type) = typeTextOf (n'.field? .type) := by
      rcases (by simpa using hk : n.kind = .requiredParameter ∨ n.kind = .optionalParameter)
        with hk | hk <;> simpa [hk, wording] using hw
    rw [← htype]
    exact patternBindings_alike (h.field? .pattern) _
  · exact entries_nil

theorem parameterBindings_alike (h : ReadsAlike accessors n n') (hf : n.kind.isFunction = true) :
    EntriesResemble (Counterpart accessors Twin) (parameterBindings n) (parameterBindings n') := by
  have htext := h.parametersText hf
  unfold parametersText at htext
  unfold parameterBindings
  obtain ⟨hp, hp'⟩ | ⟨p, p', hp, hp', -⟩ := rel_cases (h.field? .parameter) <;>
    simp only [hp, hp'] at htext ⊢
  · obtain ⟨hl, hl'⟩ | ⟨l, l', hl, hl', hlist⟩ := rel_cases (h.field? .parameters) <;>
      simp only [hl, hl']
    · exact entries_nil
    · exact hlist.named.flatMap (fun _ _ hm => listedBindings_alike hm) fun r hr => by
        simp [Node.kind_of_isRemark hr]
  · rw [← htext]
    exact entries_single .untyped

theorem isFunctionDeclaration_alike (h : ReadsAlike accessors n n') :
    isFunctionDeclaration n = isFunctionDeclaration n' := by
  simp [isFunctionDeclaration, h.kind]

/-- The names that are declared as functions are the same. -/
theorem declaredName_alike (h : ReadsAlike accessors n n') (hd : isFunctionDeclaration n = true) :
    n.fieldText .name = n'.fieldText .name ∧ n.kind.isFunction = true := by
  have hw := h.read.wording
  rcases (by simpa [isFunctionDeclaration] using hd :
    n.kind = .functionDeclaration ∨ n.kind = .generatorDeclaration) with hk | hk <;>
  · simp only [hk, wording, List.cons.injEq, Option.some.injEq, and_true] at hw
    exact ⟨hw.2.2, by rw [hk]; rfl⟩

theorem functionEntry_alike (h : ReadsAlike accessors n n') (hd : isFunctionDeclaration n = true) :
    EntriesResemble (Counterpart accessors Twin) [(n.fieldText .name, .function n)]
      [(n'.fieldText .name, .function n')] := by
  obtain ⟨hname, hf⟩ := declaredName_alike h hd
  rw [← hname]
  exact entries_single (.function hf h.counterpart)

theorem innerBindings_alike (h : ReadsAlike accessors n n') :
    EntriesResemble (Counterpart accessors Twin) (innerBindings n) (innerBindings n') := by
  unfold innerBindings
  rw [← h.kind, ← isFunctionDeclaration_alike h]
  split
  · rename_i hdeclarator
    exact declaratorBindings_alike h (beq_iff_eq.1 hdeclarator)
  · split
    · rename_i hdeclared
      exact functionEntry_alike h hdeclared
    · split
      · rename_i hfunction
        exact parameterBindings_alike h hfunction
      · exact entries_nil

/-- **Functions that read alike bind the same names.** -/
theorem functionBindings_alike (h : ReadsAlike accessors n n') (hf : n.kind.isFunction = true) :
    EntriesResemble (Counterpart accessors Twin) (functionBindings n) (functionBindings n') :=
  (parameterBindings_alike h hf).append <|
    h.descendants.flatMap (fun _ _ hm => innerBindings_alike hm) fun r hr => by
      simp [innerBindings, isFunctionDeclaration, Node.kind_of_isRemark hr, Kind.isFunction]

/-! ## Statements -/

/-- The names that a statement of a module binds, those it exports included. -/
def statementNames (s : Node) : Scope :=
  if s.kind == .exportStatement then
    match s.field? .declaration with
    | some d => statementBindings d
    | none => []
  else statementBindings s

theorem moduleBindings_eq (root : Node) :
    moduleBindings root = root.operands.flatMap statementNames :=
  flatMap_operands (fun c hc => by
    simp [statementBindings, isFunctionDeclaration, hc]) root

theorem statementBindings_alike (h : ReadsAlike accessors n n') :
    EntriesResemble (Counterpart accessors Twin) (statementBindings n) (statementBindings n') := by
  unfold statementBindings
  rw [← h.kind, ← isFunctionDeclaration_alike h]
  split
  · refine h.named.flatMap (fun d d' hd => ?_) fun r hr => by simp [Node.kind_of_isRemark hr]
    rw [← hd.kind]
    split
    · rename_i hdeclarator
      exact declaratorBindings_alike hd (beq_iff_eq.1 hdeclarator)
    · exact entries_nil
  · split
    · rename_i hdeclared
      exact functionEntry_alike h hdeclared
    · exact entries_nil

/-- **Statements that read alike bind the same names.** -/
theorem statementNames_alike (h : ReadsAlike accessors n n') :
    EntriesResemble (Counterpart accessors Twin) (statementNames n) (statementNames n') := by
  unfold statementNames
  rw [← h.kind]
  split
  · obtain ⟨hd, hd'⟩ | ⟨d, d', hd, hd', hrel⟩ := rel_cases (h.field? .declaration) <;>
      simp only [hd, hd']
    · exact entries_nil
    · exact statementBindings_alike hrel
  · exact statementBindings_alike h

end RouteAtlas.Typing
