/-
  RouteAtlas: types that are stated.

  The type of an expression can be stated behind `as`, in angle brackets in front of it, and behind the name
  of a constant that stands for it.  The angle brackets are cut off together with those of the type itself.

  * `StatedBehind`, `StatedInBrackets` and `StatedForName` are the three forms;
  * `BareEnds t`: no angle bracket stands at an end of `t`;
  * `collapse_stripped_iff`: cutting off angle brackets leaves the words of a text exactly if its ends are
    bare;
  * `stated_types` joins these.
-/
import RouteAtlas.Proofs.Code.Tree
import RouteAtlas.Proofs.Text.Blank
import RouteAtlas.Typing.Inference

namespace RouteAtlas.Typing

open RouteAtlas.Code RouteAtlas.Text

/-! ## Angle brackets -/

/-- The characters that are cut off a type in angle brackets. -/
def angles : List Char :=
  ['<', '>']

/-- No angle bracket stands at an end of a text. -/
def BareEnds (t : String) : Prop :=
  (∀ c ∈ t.toList.head?, c ∉ angles) ∧ ∀ c ∈ t.toList.getLast?, c ∉ angles

theorem strip_bracketed (inside : String) : strip angles ("<" ++ inside ++ ">") = strip angles inside := by
  unfold strip
  rw [String.toList_append, String.toList_append]
  exact congrArg String.ofList (stripChars_append (by simp [angles]) (by simp [angles]))

theorem strip_eq_self_iff {t : String} : strip angles t = t ↔ BareEnds t := by
  unfold strip BareEnds
  rw [← stripChars_eq_self_iff, ← String.toList_inj, String.toList_ofList]

instance (t : String) : Decidable (BareEnds t) :=
  decidable_of_iff _ strip_eq_self_iff

/-- A text from which an angle bracket is cut off has other words. -/
theorem collapse_strip_ne {t : String} (h : ¬ BareEnds t) : collapse (strip angles t) ≠ collapse t := by
  intro heq
  obtain ⟨front, back, ht, hcut⟩ := exists_stripChars angles t.toList
  have hvisible : ∀ c ∈ angles, isBlank c = false :=
    List.forall_mem_cons.2 ⟨by decide, List.forall_mem_singleton.2 (by decide)⟩
  have hkept := congrArg (fun s : String => (s.toList.filter fun c => !isBlank c).length) heq
  simp only [filter_collapse] at hkept
  rw [ht, strip, String.toList_ofList, List.filter_append, List.filter_append, List.length_append,
    List.length_append] at hkept
  have hfront : front.filter (fun c => !isBlank c) = front :=
    List.filter_eq_self.2 fun c hc => by simp [hvisible c (hcut c (List.mem_append_left _ hc))]
  have hback : back.filter (fun c => !isBlank c) = back :=
    List.filter_eq_self.2 fun c hc => by simp [hvisible c (hcut c (List.mem_append_right _ hc))]
  rw [hfront, hback] at hkept
  have hnone : front.length = 0 ∧ back.length = 0 := by omega
  rw [List.length_eq_zero_iff, List.length_eq_zero_iff] at hnone
  rw [hnone.1, hnone.2, List.nil_append, List.append_nil] at ht
  refine h (strip_eq_self_iff.1 ?_)
  rw [strip, ← ht, String.ofList_toList]

/-- Cutting off angle brackets leaves the words of a text exactly if its ends are bare. -/
theorem collapse_stripped_iff {t : String} : collapse (strip angles t) = collapse t ↔ BareEnds t :=
  ⟨fun h => by_contra fun hbare => collapse_strip_ne hbare h, fun h => by rw [strip_eq_self_iff.2 h]⟩

/-! ## The three forms -/

/-- An expression `e as T`: the type stands last, behind an operand. -/
structure StatedBehind (type : String) (n : Node) : Prop where
  kind : n.kind = .asExpression
  written : ∃ e between t, n.named = e :: (between ++ [t]) ∧ t.text = type

/-- An expression `<T>e`: in front of an operand stands a text in angle brackets. -/
structure StatedInBrackets (inside : String) (n : Node) : Prop where
  kind : n.kind = .assertion
  written : ∃ brackets e rest, n.named = brackets :: e :: rest ∧ brackets.text = "<" ++ inside ++ ">"

/-- A declaration `name: T = e`. -/
structure StatedForName (type name : String) (d : Node) : Prop where
  named : ∃ x, d.field? .name = some x ∧ x.kind = .identifier ∧ x.text = name
  written : ∃ annotation t, d.field? .type = some annotation ∧ annotation.named.head? = some t ∧ t.text = type

section
variable {scope : Scope} {limit : Nat} {resolving : List String} {type name : String} {n d : Node}

theorem infer_as (h : StatedBehind type n) :
    infer scope (limit + 1) resolving n = some (collapse type) := by
  obtain ⟨e, between, t, hnamed, rfl⟩ := h.written
  obtain ⟨first, rest, hrest⟩ := List.exists_cons_of_ne_nil (List.append_ne_nil_of_right_ne_nil between
    (List.cons_ne_nil t []))
  have hlast : (first :: rest).getLast? = some t := by rw [← hrest]; exact List.getLast?_concat
  rw [hrest] at hnamed
  simp only [infer, typeOf, h.kind, assertedType, hnamed, hlast, Option.map_some, Option.getD_some]

theorem infer_assertion {inside : String} (h : StatedInBrackets inside n) :
    infer scope (limit + 1) resolving n = some (collapse (strip angles inside)) := by
  obtain ⟨brackets, e, rest, hnamed, htext⟩ := h.written
  rw [← strip_bracketed, ← htext]
  simp only [infer, typeOf, h.kind, bracketedType, hnamed, angles]

theorem declaratorBindings_stated (h : StatedForName type name d) :
    declaratorBindings d = [(name, .annotated (collapse type))] := by
  obtain ⟨x, hx, hkind, rfl⟩ := h.named
  obtain ⟨written, t, hwritten, ht, rfl⟩ := h.written
  simp [declaratorBindings, typeTextOf, hx, hkind, hwritten, ht]

theorem resolve_stated {before after : Scope} (h : StatedForName type name d)
    (hscope : scope = before ++ declaratorBindings d ++ after) (hfirst : ∀ b, (name, b) ∉ before)
    (hresolving : name ∉ resolving) (infer : Infer) :
    resolve infer resolving scope name = some (collapse type) := by
  have hbefore : before.lookup name = none := by
    refine List.lookup_eq_none_iff.2 fun entry hentry => ?_
    have hne : name ≠ entry.1 := fun heq => hfirst entry.2 (heq ▸ hentry)
    simpa using hne
  have hfind : scope.find? name = some (.annotated (collapse type)) := by
    rw [Scope.find?, hscope, declaratorBindings_stated h, List.lookup_append, List.lookup_append, hbefore]
    simp
  simp only [resolve, List.contains_iff_mem, hresolving, if_false, hfind]

/-- **Types that are stated.**  A type behind `as`, and one behind the name of a constant that the scope
    has no other entry of in front, is shown as the words of its text.  So is one in angle brackets exactly
    if no bracket stands at an end of what is written between them. -/
theorem stated_types (scope : Scope) (limit : Nat) (resolving : List String) (type : String) :
    (∀ n, StatedBehind type n → infer scope (limit + 1) resolving n = some (collapse type)) ∧
    (∀ d name before after, StatedForName type name d → scope = before ++ declaratorBindings d ++ after →
      (∀ b, (name, b) ∉ before) → name ∉ resolving →
      resolve (infer scope limit) resolving scope name = some (collapse type)) ∧
    ∀ n front back, (∀ c ∈ front.toList, isBlank c = true) → (∀ c ∈ back.toList, isBlank c = true) →
      StatedInBrackets (front ++ type ++ back) n →
      (infer scope (limit + 1) resolving n = some (collapse type) ↔ BareEnds (front ++ type ++ back)) := by
  refine ⟨fun n => infer_as, fun d name before after h hscope hfirst hresolving =>
    resolve_stated h hscope hfirst hresolving _, fun n front back hfront hback h => ?_⟩
  have hwords : collapse (front ++ type ++ back) = collapse type := collapse_append hfront hback
  rw [infer_assertion h, Option.some_inj, ← hwords]
  exact collapse_stripped_iff

end

/-- The expression `response as Promise<string>`. -/
def responseAs : Node :=
  .planted .asExpression none "response as Promise<string>" [.planted .identifier none "response" [],
    .planted .token none "as" [], .planted .typeText none "Promise<string>" []]

/-- The expression `<Promise<string>>response`. -/
def responseInBrackets : Node :=
  .planted .assertion none "<Promise<string>>response" [.planted .typeArguments none "<Promise<string>>" [],
    .planted .identifier none "response" []]

/-- The declaration `page: Promise<string> = response`. -/
def pageDeclarator : Node :=
  .planted .declarator none "page: Promise<string> = response" [
    .planted .identifier (some .name) "page" [],
    .planted .writtenType (some .type) ": Promise<string>" [.planted .typeText none "Promise<string>" []],
    .planted .identifier (some .value) "response" []]

/-- Of a promise in angle brackets the last bracket is cut off with them. -/
theorem stated_types_promise :
    infer [] 1 [] responseAs = some "Promise<string>" ∧
    resolve (infer (declaratorBindings pageDeclarator) 1) [] (declaratorBindings pageDeclarator) "page" =
      some "Promise<string>" ∧
    infer [] 1 [] responseInBrackets = some "Promise<string" ∧
    infer [] 1 [] responseInBrackets ≠ some "Promise<string>" := by
  have hcollapse : collapse "Promise<string>" = "Promise<string>" := by decide +kernel
  have has := (stated_types [] 0 [] "Promise<string>").1 responseAs
    ⟨rfl, .planted .identifier none "response" [], [], .planted .typeText none "Promise<string>" [], rfl, rfl⟩
  have hname := (stated_types (declaratorBindings pageDeclarator) 1 [] "Promise<string>").2.1 pageDeclarator
    "page" [] [] ⟨⟨_, rfl, rfl, rfl⟩, _, _, rfl, rfl, rfl⟩ rfl (by simp) (by simp)
  have hbrackets := (stated_types [] 0 [] "Promise<string>").2.2 responseInBrackets "" "" (by simp) (by simp)
    ⟨rfl, _, _, _, rfl, rfl⟩
  rw [hcollapse] at has hname hbrackets
  refine ⟨has, hname, by decide +kernel, fun h => ?_⟩
  exact absurd (hbrackets.1 h) (by decide +kernel)

end RouteAtlas.Typing
