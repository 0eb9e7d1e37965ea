/-
  RouteAtlas: trees that read alike.

  Two trees read alike if the second one is the first one with comments put in, and the texts that are
  looked at are the same.  Positions are never looked at, and the text of a node only where it is a
  leaf or is copied: of a written type, of a list of parameters, of the callee of a member call.

  * `wording accessors kind n` is what is read as text at a node of a kind;
  * `ReadsAlike accessors n n'`: nodes of the same kind with the same wording, whose children are woven;
  * children in a role, operands, wrapped expressions, descendants and return statements of trees that
    read alike read alike;
  * `alike?` checks whether two trees read alike.
-/
import RouteAtlas.Handler.Signature
import RouteAtlas.Proofs.Code.Tree
import RouteAtlas.Proofs.Code.Woven

namespace RouteAtlas.Typing

open RouteAtlas.Code RouteAtlas.Text

/-! ## What is read -/

/-- The type of a call of a member, which is known from how the member is written. -/
def calledType? (n : Node) : Option String :=
  match (n.field? .callee).map Node.unwrap with
  | some callee =>
    if callee.kind == .member then
      some (memberCallType (squeeze callee.text) (callee.fieldText .property))
    else none
  | none => none

/-- The type that is written behind an operand. -/
def assertedText? (n : Node) : Option String :=
  match n.named with
  | _ :: rest@(_ :: _) => some ((rest.getLast?.map fun type => collapse type.text).getD any)
  | _ => none

/-- What is read as text at a node of a kind. -/
def wording (accessors : List String) (kind : Kind) (n : Node) : List (Option String) :=
  match kind with
  | .token | .identifier | .number | .shorthand | .shorthandPattern => [some n.text]
  | .declarator | .requiredParameter | .optionalParameter => [typeTextOf (n.field? .type)]
  | .pairPattern => [some (n.fieldText .key)]
  | .defaultPattern => [some (n.fieldText .left)]
  | .functionDeclaration | .generatorDeclaration =>
    [typeTextOf (n.field? .returnType), some (parametersText n), some (n.fieldText .name)]
  | .functionExpression | .generatorExpression | .arrowFunction =>
    [typeTextOf (n.field? .returnType), some (parametersText n)]
  | .methodDefinition =>
    [typeTextOf (n.field? .returnType), some (parametersText n), propertyKey? (n.field? .name)]
  | .functionSignature | .classDeclaration => [some (n.fieldText .name)]
  | .exportSpecifier => [some (n.fieldText .name), (n.field? .newName).map Node.text]
  | .pair => [propertyKey? (n.field? .key)]
  | .binary | .unary => [some (n.fieldText .operator)]
  | .member => [some (n.fieldText .property)]
  | .asExpression => [assertedText? n]
  | .assertion => [some (bracketedType n)]
  | .construction => [some (constructedType n)]
  | .call => [calledType? n, Handler.queryName? accessors n]
  | _ => []

/-- The constructs whose operand is their first named child. -/
def readsFirst : Kind → Bool
  | .parenthesized | .satisfies | .nonNull | .asExpression | .await | .returnStatement => true
  | _ => false

/-- What is read at two nodes is the same, and no remark was put in the place of an operand. -/
structure WordedAlike (accessors : List String) (n n' : Node) : Prop where
  kind : n.kind = n'.kind
  wording : wording accessors n.kind n = wording accessors n.kind n'
  first : readsFirst n.kind = true → n'.named.head?.any Node.isRemark = true →
    n.named.head?.any Node.isRemark = true
  last : n.kind = .sequence → n'.named.getLast?.any Node.isRemark = true →
    n.named.getLast?.any Node.isRemark = true

/-- The second tree is the first one with comments put in where no text of them is read. -/
inductive ReadsAlike (accessors : List String) : Node → Node → Prop where
  | intro {n n' : Node} : WordedAlike accessors n n' → Woven (ReadsAlike accessors) n.children n'.children →
      ReadsAlike accessors n n'

namespace ReadsAlike

variable {accessors : List String} {n n' : Node}

theorem read (h : ReadsAlike accessors n n') : WordedAlike accessors n n' := by
  cases h with
  | intro hread _ => exact hread

theorem kind (h : ReadsAlike accessors n n') : n.kind = n'.kind :=
  h.read.kind

theorem children (h : ReadsAlike accessors n n') : Woven (ReadsAlike accessors) n.children n'.children := by
  cases h with
  | intro _ hchildren => exact hchildren

theorem refl (n : Node) : ReadsAlike accessors n n :=
  .intro ⟨rfl, rfl, fun _ => id, fun _ => id⟩
    ((Woven.refl (R := Eq) (fun _ => rfl) n.children).imp_mem fun m hm _ _ heq =>
      heq ▸ have := Node.size_lt_of_mem hm; refl m)
termination_by n.size

/-- The part that a node plays is not read at the node itself. -/
theorem playing (kind : Kind) (role role' : Option Role) (span : Span) (text : String)
    (children : List Node) :
    ReadsAlike accessors (.mk kind role span text children) (.mk kind role' span text children) := by
  refine .intro ⟨rfl, ?_, fun _ => id, fun _ => id⟩ (Woven.refl refl children)
  show wording accessors kind _ = wording accessors kind _
  cases kind <;> rfl

theorem withRole (n : Node) (role : Role) : ReadsAlike accessors (n.withRole role) n := by
  cases n
  exact playing ..

theorem toRole (n : Node) (role : Role) : ReadsAlike accessors n (n.withRole role) := by
  cases n
  exact playing ..

/-- Remarks read alike. -/
theorem remarks (h : n.isRemark = true) (h' : n'.isRemark = true) : ReadsAlike accessors n n' := by
  have hk := Node.kind_of_isRemark h
  refine .intro ⟨hk.trans (Node.kind_of_isRemark h').symm, by simp [hk, Typing.wording],
    by simp [hk, readsFirst], by simp [hk]⟩ ?_
  rw [Node.children_of_isRemark h, Node.children_of_isRemark h']
  exact .nil

/-! ## Children -/

theorem field? (h : ReadsAlike accessors n n') (role : Role) :
    Option.Rel (ReadsAlike accessors) (n.field? role) (n'.field? role) :=
  h.children.find? (fun _ _ _ hrole => by rw [hrole]) fun r hr => by
    simp [Node.role_of_isRemark hr]

theorem hasToken (h : ReadsAlike accessors n n') (token : String) :
    n.hasToken token = n'.hasToken token := by
  refine h.children.any (fun m m' hm => ?_) fun r hr => by simp [Node.kind_of_isRemark hr]
  rw [← hm.kind]
  by_cases hk : m.kind = .token
  · have hw : [some m.text] = [some m'.text] := by
      have hread := hm.read.wording
      rwa [hk] at hread
    simp only [List.cons.injEq, Option.some.injEq, and_true] at hw
    simp [hw]
  · simp [beq_eq_false_iff_ne.2 hk]

theorem named (h : ReadsAlike accessors n n') : Woven (ReadsAlike accessors) n.named n'.named :=
  h.children.filter fun _ _ hm => by simp [Node.isNamed, hm.kind]

theorem operands (h : ReadsAlike accessors n n') :
    List.Forall₂ (ReadsAlike accessors) n.operands n'.operands :=
  h.named.filter_forall₂ (fun _ _ hm => by simp [Node.isComment, hm.kind]) fun r hr => by
    rw [Node.isComment_of_isRemark hr]; rfl

theorem head? (h : ReadsAlike accessors n n') (hk : readsFirst n.kind = true) :
    Option.Rel (ReadsAlike accessors) n.named.head? n'.named.head? :=
  h.named.head? (fun _ _ => remarks) (h.read.first hk)

theorem getLast? (h : ReadsAlike accessors n n') (hk : n.kind = .sequence) :
    Option.Rel (ReadsAlike accessors) n.named.getLast? n'.named.getLast? :=
  h.named.getLast? (fun _ _ => remarks) (h.read.last hk)

theorem readsFirst_of_isWrapper {k : Kind} (h : k.isWrapper = true) : readsFirst k = true := by
  revert h
  cases k <;> decide

theorem unwrap (h : ReadsAlike accessors n n') : ReadsAlike accessors n.unwrap n'.unwrap := by
  induction n using Node.unwrap.induct generalizing n' with
  | case1 n hw hnil =>
    have hhead := h.head? (readsFirst_of_isWrapper hw)
    rw [hnil] at hhead
    obtain ⟨-, hnil'⟩ | ⟨_, _, hsome, -⟩ := rel_cases hhead
    swap
    · cases hsome
    rw [List.head?_eq_none_iff] at hnil'
    rw [Node.unwrap, if_pos hw, hnil, Node.unwrap, if_pos (h.kind ▸ hw), hnil']
    exact h
  | case2 n hw c cs hn ih =>
    have hhead := h.head? (readsFirst_of_isWrapper hw)
    rw [hn, List.head?_cons] at hhead
    obtain ⟨h, -⟩ | ⟨_, c', h, hc', hrel⟩ := rel_cases hhead <;> cases h
    rw [Node.unwrap_of_head hw (by rw [hn]; rfl), Node.unwrap_of_head (h.kind ▸ hw) hc']
    exact ih hrel
  | case3 n hw =>
    have hw : n.kind.isWrapper = false := by simpa using hw
    rw [Node.unwrap_of_not_isWrapper hw, Node.unwrap_of_not_isWrapper (h.kind ▸ hw)]
    exact h

/-! ## Descendants -/

theorem preorder : ∀ {n n' : Node}, ReadsAlike accessors n n' → n.role = n'.role →
    Woven (ReadsAlike accessors) n.preorder n'.preorder
  | n, n', h, hrole => by
    rw [Node.preorder_eq, Node.preorder_eq]
    exact .cons h hrole (h.children.preorders fun m hm _ _ hrel hrole =>
      have := Node.size_lt_of_mem hm
      preorder hrel hrole)
termination_by n => n.size

theorem descendants (h : ReadsAlike accessors n n') :
    Woven (ReadsAlike accessors) n.descendants n'.descendants := by
  rw [Node.descendants_eq_inner, Node.descendants_eq_inner]
  exact h.children.preorders fun _ _ _ _ => preorder

theorem descendantsOf (h : ReadsAlike accessors n n') {k : Kind} (hk : k ≠ .comment) :
    List.Forall₂ (ReadsAlike accessors) (n.descendantsOf k) (n'.descendantsOf k) :=
  h.descendants.filter_forall₂ (fun _ _ hm => by rw [hm.kind]) fun r hr => by
    simpa [Node.kind_of_isRemark hr] using hk.symm

theorem visitReturns {found found' stack stack' : List Node}
    (hfound : List.Forall₂ (ReadsAlike accessors) found found')
    (hstack : Woven (ReadsAlike accessors) stack stack') :
    List.Forall₂ (ReadsAlike accessors) (Node.visitReturns found stack)
      (Node.visitReturns found' stack') := by
  induction found', stack' using Node.visitReturns.induct generalizing found stack with
  | case1 found' =>
    cases hstack
    rw [Node.visitReturns, Node.visitReturns]
    exact List.rel_reverse hfound
  | case2 found' c' rest' ih =>
    rw [Node.visitReturns.eq_2 found' c' rest']
    cases hstack with
    | @cons c _ rest _ hc _ hrest =>
      rw [Node.visitReturns]
      refine ih ?_ ((hc.children.filter fun _ _ hm => by simp [Node.hidesReturns, hm.kind]).append hrest)
      rw [hc.kind]
      split
      · exact .cons hc hfound
      · exact hfound
    | remark hr hrest =>
      refine ih ?_ ?_
      · simpa [Node.kind_of_isRemark hr] using hfound
      · simpa [Node.children_of_isRemark hr] using hrest

theorem ownReturns (h : ReadsAlike accessors n n') :
    List.Forall₂ (ReadsAlike accessors) n.ownReturns n'.ownReturns := by
  unfold Node.ownReturns
  obtain ⟨hb, hb'⟩ | ⟨body, body', hb, hb', hbody⟩ := rel_cases (h.field? .body) <;> rw [hb, hb']
  · exact .nil
  · have hrole : body.role = body'.role := by
      rw [Node.role_of_field? hb, Node.role_of_field? hb']
    exact visitReturns .nil (.cons hbody hrole .nil)

/-! ## Texts -/

theorem text_of_identifier (h : ReadsAlike accessors n n') (hk : n.kind = .identifier) :
    n.text = n'.text := by
  have hw : [some n.text] = [some n'.text] := by
    have hread := h.read.wording
    rwa [hk] at hread
  simpa using hw

/-- At a function, the type that is written for what it returns is read first, and then its parameters. -/
theorem wording_of_isFunction (accessors : List String) {kind : Kind} (hk : kind.isFunction = true) :
    ∃ rest : Node → List (Option String), ∀ n, Typing.wording accessors kind n =
      typeTextOf (n.field? .returnType) :: some (Typing.parametersText n) :: rest n := by
  cases kind <;> first | exact ⟨_, fun _ => rfl⟩ | cases hk

theorem returnType_text (h : ReadsAlike accessors n n') (hk : n.kind.isFunction = true) :
    typeTextOf (n.field? .returnType) = typeTextOf (n'.field? .returnType) := by
  obtain ⟨rest, hrest⟩ := wording_of_isFunction accessors hk
  have hw := h.read.wording
  rw [hrest, hrest] at hw
  exact (List.cons.inj hw).1

theorem parametersText (h : ReadsAlike accessors n n') (hk : n.kind.isFunction = true) :
    Typing.parametersText n = Typing.parametersText n' := by
  obtain ⟨rest, hrest⟩ := wording_of_isFunction accessors hk
  have hw := h.read.wording
  rw [hrest, hrest] at hw
  exact Option.some.inj (List.cons.inj (List.cons.inj hw).2).1

end ReadsAlike

/-! ## Checking -/

theorem wordedAlike_iff (accessors : List String) (n n' : Node) :
    WordedAlike accessors n n' ↔
      n.kind = n'.kind ∧ wording accessors n.kind n = wording accessors n.kind n' ∧
        (readsFirst n.kind = true → n'.named.head?.any Node.isRemark = true →
          n.named.head?.any Node.isRemark = true) ∧
        (n.kind = .sequence → n'.named.getLast?.any Node.isRemark = true →
          n.named.getLast?.any Node.isRemark = true) :=
  ⟨fun h => ⟨h.kind, h.wording, h.first, h.last⟩, fun ⟨hk, hw, hf, hl⟩ => ⟨hk, hw, hf, hl⟩⟩

instance (accessors : List String) (n n' : Node) : Decidable (WordedAlike accessors n n') :=
  decidable_of_iff' _ (wordedAlike_iff accessors n n')

mutual
/-- Checks that two trees read alike. -/
def alike? (accessors : List String) : Node → Node → Bool
  | .mk kind role span text children, n' =>
    decide (WordedAlike accessors (.mk kind role span text children) n') &&
      woven? accessors children n'.children
/-- Checks that children are woven; remarks are passed over where none is expected. -/
def woven? (accessors : List String) : List Node → List Node → Bool
  | [], ns => ns.all Node.isRemark
  | m :: ms, ns =>
    match if m.isRemark then ns else ns.dropWhile Node.isRemark with
    | [] => false
    | n :: ns => alike? accessors m n && m.role == n.role && woven? accessors ms ns
end

theorem woven_of_dropWhile {R : Node → Node → Prop} {ms : List Node} :
    ∀ {ns : List Node}, Woven R ms (ns.dropWhile Node.isRemark) → Woven R ms ns
  | [], h => h
  | n :: ns, h => by
    rw [List.dropWhile_cons] at h
    split at h
    · rename_i hremark
      exact .remark hremark (woven_of_dropWhile h)
    · exact h

theorem woven_of_all {R : Node → Node → Prop} :
    ∀ {ns : List Node}, ns.all Node.isRemark = true → Woven R [] ns
  | [], _ => .nil
  | n :: ns, h => by
    rw [List.all_cons, Bool.and_eq_true] at h
    exact .remark h.1 (woven_of_all h.2)

/-- Children are woven if the first one is related behind the remarks that are passed over, and the rest is
    woven behind it. -/
theorem woven_cons_of_skipped {R : Node → Node → Prop} {m n : Node} {ms ns rest : List Node}
    (hskipped : (if m.isRemark then ns else ns.dropWhile Node.isRemark) = n :: rest) (h : R m n)
    (hrole : m.role = n.role) (hrest : Woven R ms rest) : Woven R (m :: ms) ns := by
  have hwoven : Woven R (m :: ms) (n :: rest) := .cons h hrole hrest
  rw [← hskipped] at hwoven
  split at hwoven
  · exact hwoven
  · exact woven_of_dropWhile hwoven

mutual
theorem alike_of_check {accessors : List String} : ∀ {n n' : Node},
    alike? accessors n n' = true → ReadsAlike accessors n n'
  | .mk kind role span text children, n', h => by
    rw [alike?, Bool.and_eq_true, decide_eq_true_iff] at h
    exact .intro h.1 (woven_of_check h.2)
theorem woven_of_check {accessors : List String} : ∀ {ms ns : List Node},
    woven? accessors ms ns = true → Woven (ReadsAlike accessors) ms ns
  | [], ns, h => woven_of_all (by rwa [woven?] at h)
  | m :: ms, ns, h => by
    rw [woven?] at h
    split at h
    · cases h
    · rename_i n rest hskipped
      simp only [Bool.and_eq_true, beq_iff_eq] at h
      exact woven_cons_of_skipped hskipped (alike_of_check h.1.1) h.1.2 (woven_of_check h.2)
end

end RouteAtlas.Typing
