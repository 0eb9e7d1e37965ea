/-
  RouteAtlas: well-formed texts of types.

  * `WellFormed t`: the brackets of `t` are balanced, and `t` is neither empty nor does it end with an
    equals sign, which would make an arrow of a bracket behind it;
  * unions, arrays, promises, objects, functions and members of well-formed types are well formed;
  * `CleanCut start stop t`: what `start` opens in `t` is closed by the `stop` at its end, with
    something in between;
  * `wellFormed_awaited_iff`, `wellFormed_elementOf_iff`: what is cut out of a well-formed type is
    well formed exactly if the cut is clean.
-/
import Mathlib.Data.List.Basic
import RouteAtlas.Proofs.Text.Balance
import RouteAtlas.Proofs.Typing.Union
import RouteAtlas.Typing.Inference

namespace RouteAtlas.Typing

open RouteAtlas.Text

/-! ## Well-formed texts -/

/-- A text is not empty, and a bracket can stand behind it: it does not end with an equals sign, which
    no written type does. -/
structure Whole (t : String) : Prop where
  ne_empty : t ≠ ""
  ended : endsWith "=" t = false

/-- A text is whole, and its brackets are balanced. -/
structure WellFormed (t : String) : Prop extends Whole t where
  balanced : Balanced t

instance (t : String) : Decidable (Whole t) :=
  decidable_of_iff (t ≠ "" ∧ endsWith "=" t = false) ⟨fun h => ⟨h.1, h.2⟩, fun h => ⟨h.1, h.2⟩⟩

instance (t : String) : Decidable (WellFormed t) :=
  decidable_of_iff (Whole t ∧ Balanced t) ⟨fun h => ⟨h.1, h.2⟩, fun h => ⟨h.1, h.2⟩⟩

variable {s t : String}

/-- A text with a whole one at its end is whole. -/
theorem Whole.append (ht : Whole t) (s : String) : Whole (s ++ t) := by
  obtain ⟨cs, c, hc⟩ : ∃ cs c, t.toList = cs ++ [c] := by
    rcases List.eq_nil_or_concat' t.toList with hnil | h
    · exact absurd (String.toList_eq_nil_iff.1 hnil) ht.ne_empty
    · exact h
  have hlast : c ≠ '=' := by
    rintro rfl
    have hend : t = .ofList cs ++ "=" := by
      apply String.toList_inj.1
      rw [hc, String.toList_append, String.toList_ofList]
      rfl
    have := ht.ended
    rw [endsWith_iff.2 ⟨_, hend⟩] at this
    cases this
  constructor
  · intro h
    have := congrArg String.toList h
    simp [hc] at this
  · refine Bool.eq_false_iff.2 fun h => ?_
    obtain ⟨rest, hrest⟩ := endsWith_iff.1 h
    have hchars := congrArg String.toList hrest
    rw [String.toList_append, hc, String.toList_append, ← List.append_assoc] at hchars
    exact hlast (List.cons.inj (List.append_inj_right' hchars rfl)).1

/-- A balanced text with a whole one at its end is well formed. -/
theorem WellFormed.of_end (h : Balanced (s ++ t)) (ht : Whole t) : WellFormed (s ++ t) :=
  ⟨ht.append s, h⟩

theorem WellFormed.append (hs : Balanced s) (ht : WellFormed t) : WellFormed (s ++ t) :=
  ⟨ht.toWhole.append s, hs.append ht.balanced⟩

theorem wellFormed_joinWith {sep : String} (hsep : Balanced sep) : ∀ {parts : List String},
    parts ≠ [] → (∀ p ∈ parts, WellFormed p) → WellFormed (joinWith sep parts)
  | [p], _, h => by rw [joinWith_singleton]; exact h p (List.mem_cons_self ..)
  | p :: q :: parts, _, h => by
    rw [joinWith_cons_cons]
    obtain ⟨hp, hrest⟩ := List.forall_mem_cons.1 h
    exact .append (hp.balanced.append hsep)
      (wellFormed_joinWith hsep (List.cons_ne_nil q parts) hrest)

/-! ## Types that are built -/

theorem wellFormed_distinct {ts : List String} (h : ∀ t ∈ ts, WellFormed t) :
    ∀ t ∈ distinct ts, WellFormed t :=
  fun t ht => h t (mem_distinct.1 ht).1

/-- Types with bars between them. -/
theorem wellFormed_joined {ts : List String} (hne : ts ≠ []) (h : ∀ t ∈ ts, WellFormed t) :
    WellFormed (joined ts) := by
  obtain ⟨t, rest, rfl⟩ := List.exists_cons_of_ne_nil hne
  have ht : t ∈ distinct (t :: rest) :=
    mem_distinct.2 ⟨List.mem_cons_self .., (h t (List.mem_cons_self ..)).ne_empty⟩
  exact wellFormed_joinWith (by decide) (List.ne_nil_of_mem ht) (wellFormed_distinct h)

theorem wellFormed_any : WellFormed any := by decide

theorem wellFormed_union {ts : List String} (h : ∀ t ∈ ts, WellFormed t) : WellFormed (union ts) := by
  rw [union_eq]
  refine wellFormed_joinWith (by decide) (unionMembers_ne_nil ts) fun t ht => ?_
  rcases mem_unionMembers ht with rfl | hmem
  · exact wellFormed_any
  · exact h t hmem

theorem balanced_parenthesized (h : Balanced t) : Balanced ("(" ++ t ++ ")") :=
  h.enclose encloses_round fun hc => absurd hc (by decide)

theorem wellFormed_arrayOf (h : WellFormed t) : WellFormed (arrayOf t) := by
  unfold arrayOf
  split
  · rw [show ")[]" = ")" ++ "[]" from rfl, ← String.append_assoc]
    exact .append (balanced_parenthesized h.balanced) (by decide)
  · exact .append h.balanced (by decide)

theorem encloses_promise : Encloses '>' promiseStart ">" := ⟨by decide, by decide, rfl, rfl⟩

theorem wellFormed_promiseOf (h : WellFormed t) : WellFormed (promiseOf t) := by
  unfold promiseOf
  split
  · exact h
  · exact .of_end (h.balanced.enclose encloses_promise fun _ => h.ended) (by decide)

/-- The type of a function. -/
theorem wellFormed_function {parameters : String} (hp : Balanced parameters) (h : WellFormed t) :
    WellFormed ("(" ++ parameters ++ ") => " ++ t) := by
  rw [show ") => " = ")" ++ " => " from rfl, ← String.append_assoc]
  exact .append ((balanced_parenthesized hp).append (by decide)) h

theorem encloses_key : Encloses ']' "[\"" "]" := ⟨by decide, by decide, rfl, rfl⟩

theorem wellFormed_memberOf {key : String} (h : WellFormed t) (hkey : Balanced key) :
    WellFormed (memberOf t key) := by
  have hquoted : Balanced ("[\"" ++ (key ++ "\"") ++ "]") :=
    (hkey.append (by decide)).enclose encloses_key fun hc => absurd hc (by decide)
  have hall : memberOf t key = t ++ ("[\"" ++ (key ++ "\"") ++ "]") := by
    unfold memberOf
    rw [show "\"]" = "\"" ++ "]" from rfl]
    simp only [String.append_assoc]
  rw [hall]
  exact .append h.balanced (.of_end hquoted (by decide))

theorem wellFormed_namedMember {key : String} (h : WellFormed t) (hkey : Balanced key) :
    WellFormed (namedMember t key) := by
  unfold namedMember
  split
  · exact wellFormed_memberOf h hkey
  · exact wellFormed_any

theorem wellFormed_memberText {key : String} (hkey : Balanced key) (h : WellFormed t) :
    WellFormed (memberText key t) :=
  .append ((hkey.append (by decide)).append h.balanced) (by decide)

theorem encloses_members : Encloses '}' "\x7b " "\x7d" := ⟨by decide, by decide, rfl, rfl⟩

theorem wellFormed_objectText {members : List String} (h : ∀ m ∈ members, WellFormed m) :
    WellFormed (objectText members) := by
  unfold objectText
  split
  · decide
  · have hjoined : Balanced (joinWith " " members) :=
      .joinWith (by decide) fun m hm => (h m hm).balanced
    have henclosed : Balanced ("\x7b " ++ (joinWith " " members ++ " ") ++ "\x7d") :=
      (hjoined.append (by decide)).enclose encloses_members fun hc => absurd hc (by decide)
    rw [show " \x7d" = " " ++ "\x7d" from rfl, ← String.append_assoc,
      @String.append_assoc "\x7b "]
    exact .of_end henclosed (by decide)

/-! ## Types that are cut -/

/-- What stands in a text between a start and a stop, or the text itself. -/
def cutOut (start stop t : String) : String :=
  ((dropStart? start t).bind (dropEnd? stop)).getD t

theorem cutOut_cases (start stop t : String) :
    (∃ middle, t = start ++ middle ++ stop ∧ cutOut start stop t = middle) ∨
      (∀ middle, t ≠ start ++ middle ++ stop) ∧ cutOut start stop t = t := by
  have hiff : ∀ middle, (dropStart? start t).bind (dropEnd? stop) = some middle ↔
      t = start ++ middle ++ stop := by
    intro middle
    rw [Option.bind_eq_some_iff, String.append_assoc]
    constructor
    · rintro ⟨rest, hrest, hmiddle⟩
      rw [dropStart?_eq_some_iff.1 hrest, dropEnd?_eq_some_iff.1 hmiddle]
    · intro ht
      exact ⟨_, dropStart?_eq_some_iff.2 ht, dropEnd?_eq_some_iff.2 rfl⟩
  unfold cutOut
  cases hcut : (dropStart? start t).bind (dropEnd? stop) with
  | none =>
    refine Or.inr ⟨fun middle ht => ?_, rfl⟩
    rw [(hiff middle).2 ht] at hcut
    cases hcut
  | some middle => exact Or.inl ⟨middle, (hiff middle).1 hcut, rfl⟩

/-- What `start` opens in a text is closed by the `stop` at its end, and not before, with something in
    between. -/
def CleanCut (start stop t : String) : Prop :=
  ∀ middle, t = start ++ middle ++ stop → Whole middle ∧ ClosedLast start stop middle

theorem cleanCut_enclosed_iff {start stop middle : String} :
    CleanCut start stop (start ++ middle ++ stop) ↔ Whole middle ∧ ClosedLast start stop middle := by
  refine ⟨fun h => h middle rfl, fun h middle' heq => ?_⟩
  obtain rfl : middle = middle' :=
    (String.append_right_inj _).1 ((String.append_left_inj _).1 heq)
  exact h

theorem wellFormed_cutOut_iff {close : Char} {start stop : String} (h : Encloses close start stop)
    (hstop : Whole stop) (ht : Balanced t) :
    WellFormed (cutOut start stop t) ↔ Whole t ∧ CleanCut start stop t := by
  rcases cutOut_cases start stop t with ⟨middle, rfl, hcut⟩ | ⟨hnone, hcut⟩
  · rw [hcut, cleanCut_enclosed_iff, ← balanced_middle_iff h ht]
    exact ⟨fun hm => ⟨hstop.append _, hm.toWhole, hm.balanced⟩, fun hm => ⟨hm.2.1, hm.2.2⟩⟩
  · rw [hcut]
    exact ⟨fun hw => ⟨hw.toWhole, fun middle hm => absurd hm (hnone middle)⟩, fun hw => ⟨hw.1, ht⟩⟩

/-- **What waiting for a type gives.**  It is well formed exactly if what opens the promise is closed
    at its end. -/
theorem wellFormed_awaited_iff (h : WellFormed t) :
    WellFormed (awaited t) ↔ CleanCut promiseStart ">" t := by
  show WellFormed (cutOut promiseStart ">" t) ↔ _
  rw [wellFormed_cutOut_iff encloses_promise (by decide) h.balanced]
  exact and_iff_right h.toWhole

/-- A union of promises opens one promise and closes another. -/
example : awaited "Promise<A> | Promise<B>" = "A> | Promise<B" := by decide

/-- Something stands in front of the brackets of an array, and if it has parentheses at its ends, the
    one is closed by the other. -/
def CleanElement (t : String) : Prop :=
  ∀ element, t = element ++ "[]" → Whole element ∧ CleanCut "(" ")" element

theorem balanced_of_array (h : Balanced (t ++ "[]")) : Balanced t := by
  obtain ⟨equals, h⟩ := balanced_iff.1 h
  rw [String.toList_append, readBrackets_append] at h
  obtain ⟨b, hb, h⟩ := Option.bind_eq_some_iff.1 h
  have hclosed : readBrackets b "[]".toList = some ⟨b.opened, false⟩ := rfl
  rw [hclosed] at h
  have hopened : b.opened = [] := congrArg Brackets.opened (Option.some.inj h)
  exact balanced_iff.2 ⟨b.equals, by rw [hb, ← hopened]⟩

/-- **What an array type is indexed to.**  It is well formed exactly if something stands in front of
    the brackets, in parentheses of its own if in any. -/
theorem wellFormed_elementOf_iff (h : WellFormed t) : WellFormed (elementOf t) ↔ CleanElement t := by
  unfold elementOf CleanElement
  cases hcut : dropEnd? "[]" t with
  | none =>
    refine ⟨fun _ element ht => ?_, fun _ => wellFormed_any⟩
    rw [dropEnd?_eq_some_iff.2 ht] at hcut
    cases hcut
  | some element =>
    obtain rfl := dropEnd?_eq_some_iff.1 hcut
    show WellFormed (cutOut "(" ")" element) ↔ _
    rw [wellFormed_cutOut_iff encloses_round (by decide) (balanced_of_array h.balanced)]
    refine ⟨fun hclean element' heq => ?_, fun hclean => hclean element rfl⟩
    obtain rfl : element = element' := (String.append_left_inj _).1 heq
    exact hclean

example : elementOf "(A | B)[] | (C | D)[]" = "A | B)[] | (C | D" := by decide

end RouteAtlas.Typing
