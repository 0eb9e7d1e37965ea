/-
  RouteAtlas: comments inside the code of a module.

  Comments are children like any other, and most rules pass over them: a child is looked up by its role,
  or operands are taken that are no comments.  A rule that takes the first or the last named child of a
  node takes a comment in its place, and a text that is copied has the comments in it.  Everywhere else a
  comment changes nothing.

  * `readsByOrder` are the constructs that take a child by its place, `readsItself` those whose own text
    is read;
  * `alike_of_remark`: any other construct reads alike with a comment put in, and `alike_of_child`: so
    does what is around it if it is worded the same;
  * `answer_of_remark_first`: a wrapper with a comment in front of its operand has the type `any`;
  * `comments_transparent`: a module that reads alike with comments put in has the same signatures.
-/
import RouteAtlas.Proofs.Route.Signature

namespace RouteAtlas.Typing

open RouteAtlas.Code RouteAtlas.Handler
open Context (answer)

/-! ## Constructs with comments -/

/-- The constructs that take a child by its place: operands in wrappers, behind `await` and `return` and
    at types, and the last expression of a sequence. -/
def readsByOrder (kind : Kind) : Bool :=
  readsFirst kind || kind == .assertion || kind == .sequence

/-- The leaves whose own text is read. -/
def readsItself : Kind → Bool
  | .token | .identifier | .number | .shorthand | .shorthandPattern => true
  | _ => false

variable {accessors : List String} {kind : Kind} {r : Node} {before after : List Node}

/-- A remark is in no role. -/
theorem field?_of_remark (hr : r.isRemark = true) {n n' : Node} (hn : n.children = before ++ after)
    (hn' : n'.children = before ++ r :: after) (role : Role) : n.field? role = n'.field? role := by
  unfold Node.field?
  rw [hn, hn', List.find?_append, List.find?_append, List.find?_cons]
  simp [Node.role_of_isRemark hr]

/-- What is read of children by their roles does not change where the children in roles do not. -/
theorem wording_of_fields {n n' : Node} (horder : readsByOrder kind = false)
    (hitself : readsItself kind = false) (h : ∀ role, n.field? role = n'.field? role) :
    wording accessors kind n = wording accessors kind n' := by
  revert horder hitself
  cases kind <;>
    simp [readsByOrder, readsFirst, readsItself, wording, Node.fieldText, parametersText,
      constructedType, calledType?, queryName?, callArguments, h]

/-- **A comment among the children changes nothing where children are taken by their roles.** -/
theorem alike_of_remark (horder : readsByOrder kind = false) (hitself : readsItself kind = false)
    (hr : r.isRemark = true) (role role' : Option Role) (span span' : Span) (text text' : String) :
    ReadsAlike accessors (.mk kind role span text (before ++ after))
      (.mk kind role' span' text' (before ++ r :: after)) := by
  have hfirst : readsFirst kind = false := by
    revert horder
    simp +contextual [readsByOrder]
  have hsequence : kind ≠ .sequence := by
    rintro rfl
    cases horder
  refine .intro ⟨rfl, ?_, ?_, ?_⟩ ?_
  · exact wording_of_fields horder hitself (field?_of_remark hr rfl rfl)
  · exact fun h => absurd h (by simp [Node.kind, hfirst])
  · exact fun h => absurd h hsequence
  · exact (Woven.refl ReadsAlike.refl before).append (.remark hr (Woven.refl ReadsAlike.refl after))

/-- What is around a construct that reads alike reads alike if it is worded the same. -/
theorem alike_of_child {n n' c c' : Node} (hread : WordedAlike accessors n n')
    (hn : n.children = before ++ c :: after) (hn' : n'.children = before ++ c' :: after)
    (hc : ReadsAlike accessors c c') (hrole : c.role = c'.role) : ReadsAlike accessors n n' := by
  refine .intro hread ?_
  rw [hn, hn']
  exact (Woven.refl ReadsAlike.refl before).append (.cons hc hrole (Woven.refl ReadsAlike.refl after))

/-! ## Constructs that take a comment for their operand -/

/-- A comment has no type of its own. -/
theorem answer_of_remark (s : Scope) (limit : Nat) (resolving : List String) (hr : r.isRemark = true) :
    answer s (limit + 1) resolving (.infer r) = some any := by
  have hrule : Call.rule resolving s (.infer r) = .plain any := by
    simp [Call.rule, expressionRule, Node.kind_of_isRemark hr]
  rw [show limit + 1 = limit + Call.cost (.infer r) from rfl, answer_eq, hrule]
  rfl

/-- **Behind a comment an operand is not seen.**  A wrapper or an `await` with a comment in front of its
    operand takes the comment for the operand, and nothing is known of its type. -/
theorem answer_of_remark_first (s : Scope) (limit : Nat) (resolving : List String) {n : Node}
    (hk : n.kind.isWrapper = true ∨ n.kind = .await) (hn : n.named.head? = some r)
    (hr : r.isRemark = true) : answer s (limit + 2) resolving (.infer n) = some any := by
  have hcomment := answer_of_remark s limit resolving hr
  obtain ⟨f, hf, hrule⟩ : ∃ f : String → String, f any = any ∧
      Call.rule resolving s (.infer n) = .one (.call resolving (.infer r)) f := by
    have hfirst : Question.first resolving n any = .call resolving (.infer r) := by
      rw [Question.first, hn]
    obtain hk | hk := hk
    · refine ⟨id, rfl, ?_⟩
      revert hk
      cases hkind : n.kind <;> simp [Call.rule, expressionRule, hkind, hfirst, Kind.isWrapper]
    · refine ⟨awaited, by decide, ?_⟩
      simp [Call.rule, expressionRule, hk, hfirst]
  rw [show limit + 2 = (limit + 1) + Call.cost (.infer n) from rfl, answer_eq, hrule]
  simp [Rule.apply_one, Question.answered, hcomment, hf]

end RouteAtlas.Typing

namespace RouteAtlas.Analysis

open RouteAtlas.Code RouteAtlas.Handler RouteAtlas.Recording RouteAtlas.Typing

/-! ## Modules with comments -/

/-- **Comments that leave a module as it reads leave its signatures as they are**, at every limit, for
    all settings and for every place of its file; and it fails where it did before. -/
theorem comments_transparent {settings : Settings} {root root' : Node}
    (h : ReadsAlike settings.queryAccessors root root') (limit : Nat) (file : String) :
    signatures settings limit file root = signatures settings limit file root' := by
  have hmatch : ModulesMatch settings (fun _ _ => False) root root' :=
    h.operands.imp fun s s' hs => statementsMatch_of_alike hs
  exact signatures_of_match hmatch fun _ _ _ _ => areTwins_none _ _

/-- The signature of a handler that gives a list of numbers. -/
def listSignature : Signature :=
  ⟨"() => number[]", "any", []⟩

/-- A module with this handler. -/
def quietSource : String := "export let GET=()=>[1]"

/-- The same module with comments in the list of parameters, in an array and in the declaration. -/
def remarkedSource : String := "export let/**/GET=(/**/)=>[1/**/]"

theorem comments_transparent_remarked :
    ∃ root ∈ (readModule .plain quietSource).toOption,
      ∃ root' ∈ (readModule .plain remarkedSource).toOption,
        ReadsAlike ({} : Settings).queryAccessors root root' ∧
        root'.preorder.countP Node.isRemark = 3 ∧
        signatures {} depthLimit "/src/routes/+server.ts" root' = .ok [(.get, listSignature)] := by
  obtain ⟨root, hroot, root', hroot', halike, hremarks, htable⟩ :
      ∃ root ∈ (readModule .plain quietSource).toOption,
        ∃ root' ∈ (readModule .plain remarkedSource).toOption,
          alike? ({} : Settings).queryAccessors root root' = true ∧
          root'.preorder.countP Node.isRemark = 3 ∧
          signatures {} depthLimit "/src/routes/+server.ts" root = .ok [(.get, listSignature)] := by
    decide +kernel
  have halike := alike_of_check halike
  exact ⟨root, hroot, root', hroot', halike, hremarks,
    (comments_transparent halike depthLimit "/src/routes/+server.ts").symm.trans htable⟩

end RouteAtlas.Analysis
