/-
  RouteAtlas: promises and waiting for them.

  An asynchronous function gives a promise, and waiting for a promise gives what it promises.  Both
  decide by the ends of a text, which are those of a promise in a union of several, too.

  * `IsPromiseOf inner t`: `t` is one promise, whose opening bracket is closed at the end; `awaitedMember`
    unwraps such a text and leaves any other as it is;
  * `isPromise_promiseOf_iff`: what is made a promise is one exactly if it starts as none and is well
    formed, or is one already;
  * `length_union_awaited`: the union of what members promise is shorter than they are by what opens and
    closes each promise;
  * `mem_of_append_cons_eq`: of a text that repeats itself behind a start, all is made of the start;
  * `promise_awaited` joins these: waiting for a union is right exactly if the union is one promise, or
    has none and does not look like one.
-/
import Mathlib.Data.List.Basic
import RouteAtlas.Proofs.Code.Tree
import RouteAtlas.Proofs.Typing.WellFormed

namespace RouteAtlas.Typing

open RouteAtlas.Code RouteAtlas.Text

variable {inner t : String} {members : List String}

/-! ## Promises -/

/-- A text is one promise of a type: what opens it is closed at its end, and not before. -/
structure IsPromiseOf (inner t : String) : Prop extends Whole inner where
  spelled : t = promiseStart ++ inner ++ ">"
  balanced : Balanced t
  closed_last : ClosedLast promiseStart ">" inner

/-- A text is one promise. -/
def IsPromise (t : String) : Prop :=
  ∃ inner, IsPromiseOf inner t

theorem isPromiseOf_iff : IsPromiseOf inner t ↔ t = promiseStart ++ inner ++ ">" ∧ WellFormed inner := by
  refine ⟨fun h => ?_, ?_⟩
  · obtain rfl := h.spelled
    exact ⟨rfl, h.toWhole, (balanced_middle_iff encloses_promise h.balanced).2 h.closed_last⟩
  · rintro ⟨rfl, h⟩
    have ht : Balanced (promiseStart ++ inner ++ ">") :=
      h.balanced.enclose encloses_promise fun _ => h.ended
    exact ⟨h.toWhole, rfl, ht, (balanced_middle_iff encloses_promise ht).1 h.balanced⟩

theorem promise_injective {inner' : String}
    (h : promiseStart ++ inner ++ ">" = promiseStart ++ inner' ++ ">") : inner = inner' :=
  (String.append_right_inj _).1 ((String.append_left_inj _).1 h)

/-- What one promise promises. -/
def promised? (t : String) : Option String :=
  ((dropStart? promiseStart t).bind (dropEnd? ">")).filter fun inner => decide (WellFormed inner)

theorem promised?_eq_some_iff : promised? t = some inner ↔ IsPromiseOf inner t := by
  have hcut : (dropStart? promiseStart t).bind (dropEnd? ">") = some inner ↔
      t = promiseStart ++ inner ++ ">" := by
    rw [Option.bind_eq_some_iff, String.append_assoc]
    constructor
    · rintro ⟨rest, hrest, hinner⟩
      rw [dropStart?_eq_some_iff.1 hrest, dropEnd?_eq_some_iff.1 hinner]
    · intro ht
      exact ⟨_, dropStart?_eq_some_iff.2 ht, dropEnd?_eq_some_iff.2 rfl⟩
  rw [isPromiseOf_iff, promised?, Option.filter_eq_some_iff, hcut, decide_eq_true_iff]

theorem isPromise_iff : IsPromise t ↔ (promised? t).isSome := by
  rw [Option.isSome_iff_exists]
  exact exists_congr fun inner => promised?_eq_some_iff.symm

instance (t : String) : Decidable (IsPromise t) :=
  decidable_of_iff _ isPromise_iff.symm

/-- What waiting for a member of a union should give: what it promises if it is a promise. -/
def awaitedMember (t : String) : String :=
  (promised? t).getD t

theorem awaitedMember_eq (h : IsPromiseOf inner t) : awaitedMember t = inner := by
  rw [awaitedMember, promised?_eq_some_iff.2 h, Option.getD_some]

theorem awaitedMember_of_not (h : ¬ IsPromise t) : awaitedMember t = t := by
  rw [isPromise_iff, Option.not_isSome_iff_eq_none] at h
  rw [awaitedMember, h, Option.getD_none]

/-! ## Making promises -/

theorem promiseOf_eq (h : startsWith promiseStart t = false) : promiseOf t = promiseStart ++ t ++ ">" := by
  simp [promiseOf, h]

theorem promiseOf_of_startsWith (h : startsWith promiseStart t = true) : promiseOf t = t := by
  simp [promiseOf, h]

/-- **What is made a promise is one promise** exactly if it starts as none and is well formed, or if it is
    one already. -/
theorem isPromise_promiseOf_iff (t : String) : IsPromise (promiseOf t) ↔
    if startsWith promiseStart t then IsPromise t else WellFormed t := by
  cases hstart : startsWith promiseStart t with
  | true => rw [promiseOf_of_startsWith hstart, if_pos rfl]
  | false =>
    rw [promiseOf_eq hstart, if_neg Bool.false_ne_true]
    constructor
    · rintro ⟨inner, h⟩
      obtain ⟨hspelled, hinner⟩ := isPromiseOf_iff.1 h
      rwa [promise_injective hspelled]
    · exact fun h => ⟨t, isPromiseOf_iff.2 ⟨rfl, h⟩⟩

/-- Waiting for a promise of a type gives the type. -/
theorem awaited_promise (inner : String) : awaited (promiseStart ++ inner ++ ">") = inner := by
  rcases cutOut_cases promiseStart ">" (promiseStart ++ inner ++ ">") with
    ⟨middle, hspelled, hcut⟩ | ⟨hnone, -⟩
  · rw [promise_injective hspelled] at hcut ⊢
    exact hcut
  · exact absurd rfl (hnone inner)

/-! ## Texts that repeat themselves -/

/-- If a text with more behind it starts as something and the text itself, then the next character is in
    what it starts as. -/
theorem mem_of_append_cons_eq {start rest behind : List Char} {c : Char} (hstart : start ≠ [])
    (text : List Char) (h : text ++ c :: behind = start ++ text ++ rest) : c ∈ start := by
  rw [List.append_assoc] at h
  rcases List.append_eq_append_iff.1 h with ⟨more, rfl, hmore⟩ | ⟨more, htext, hmore⟩
  · -- The text ends within the start, or right behind it.
    cases more with
    | nil =>
      obtain ⟨d, front, rfl⟩ := List.exists_cons_of_ne_nil (by simpa using hstart)
      obtain ⟨rfl, -⟩ := List.cons.inj hmore
      simp
    | cons d more =>
      obtain ⟨rfl, -⟩ := List.cons.inj hmore
      simp
  · -- The text starts as the start does: without it, it repeats itself as well.
    have hlt : more.length < text.length := by
      have hpos := List.length_pos_iff.2 hstart
      rw [htext, List.length_append]
      omega
    rw [htext] at hmore
    exact mem_of_append_cons_eq hstart more hmore.symm
termination_by text.length

/-! ## Waiting for the members of a union -/

theorem length_promise (inner : String) : (promiseStart ++ inner ++ ">").length = inner.length + 9 := by
  have hstart : promiseStart.length = 8 := rfl
  have hstop : ">".length = 1 := rfl
  rw [String.length_append, String.length_append, hstart, hstop]
  omega

theorem awaitedMember_ne_empty (h : t ≠ "") : awaitedMember t ≠ "" := by
  by_cases hpromise : IsPromise t
  · obtain ⟨inner, hinner⟩ := hpromise
    rw [awaitedMember_eq hinner]
    exact hinner.ne_empty
  · rwa [awaitedMember_of_not hpromise]

/-- How many of several texts are promises. -/
def promises (ts : List String) : Nat :=
  ts.countP fun t => decide (IsPromise t)

/-- Each promise is longer than what it promises by what opens and closes it. -/
theorem breadth_awaited (ts : List String) :
    breadth (ts.map awaitedMember) + 9 * promises ts = breadth ts := by
  induction ts with
  | nil => rfl
  | cons t ts ih =>
    unfold promises at ih ⊢
    rw [List.map_cons, breadth_cons, breadth_cons, List.countP_cons]
    by_cases hpromise : IsPromise t
    · obtain ⟨inner, hinner⟩ := hpromise
      have hlength : t.length = inner.length + 9 := by rw [hinner.spelled, length_promise]
      rw [awaitedMember_eq hinner, if_pos (decide_eq_true ⟨inner, hinner⟩)]
      omega
    · rw [awaitedMember_of_not hpromise, if_neg (by simpa using hpromise)]
      omega

/-- The union of what the members of a union promise is shorter by the openings and closings, and by no more
    only if it has them all. -/
theorem length_union_awaited (hne : members ≠ []) (hwords : ∀ m ∈ members, m ≠ "") :
    (union (members.map awaitedMember)).length + 9 * promises members ≤ (joinWith " | " members).length ∧
    ((union (members.map awaitedMember)).length + 9 * promises members = (joinWith " | " members).length →
      union (members.map awaitedMember) = joinWith " | " (members.map awaitedMember)) := by
  have hne' : members.map awaitedMember ≠ [] := by simpa using hne
  have hsublist := unionMembers_sublist hne'
    (List.forall_mem_map.2 fun m hm => awaitedMember_ne_empty (hwords m hm))
  have hbefore := length_joinWith_bars hne
  have hafter := length_joinWith_bars (unionMembers_ne_nil (members.map awaitedMember))
  have hpromises := breadth_awaited members
  rw [union_eq]
  rcases eq_or_breadth_lt hsublist with heq | hlt
  · rw [heq] at hafter ⊢
    exact ⟨by omega, fun _ => rfl⟩
  · exact ⟨by omega, fun hlength => by omega⟩

theorem promises_eq_zero_iff : promises members = 0 ↔ ∀ m ∈ members, ¬ IsPromise m := by
  simp [promises, List.countP_eq_zero]

theorem map_awaitedMember (h : ∀ m ∈ members, ¬ IsPromise m) : members.map awaitedMember = members :=
  (List.map_congr_left fun m hm => awaitedMember_of_not (h m hm)).trans (List.map_id members)

/-! ## What is cut out of a union -/

/-- What stands in front of a bar has no promise of itself in its place. -/
theorem append_bar_ne_promise (front behind rest : String) :
    front ++ " | " ++ behind ≠ promiseStart ++ front ++ rest := by
  intro h
  have hchars := congrArg String.toList h
  have hrepeats : front.toList ++ ' ' :: ("| ".toList ++ behind.toList) =
      promiseStart.toList ++ front.toList ++ rest.toList := by
    simpa using hchars
  exact absurd (mem_of_append_cons_eq (by decide) front.toList hrepeats) (by decide)

/-- What is cut out of several texts with bars between them, as if they were a promise, is not their
    union. -/
theorem union_ne_of_cut (hne : members ≠ []) (hwords : ∀ m ∈ members, m ≠ "")
    (ht : joinWith " | " members = promiseStart ++ inner ++ ">") : union members ≠ inner := by
  intro hunion
  obtain ⟨m, rest, rfl⟩ := List.exists_cons_of_ne_nil hne
  have hm : m ≠ "" := hwords m (List.mem_cons_self ..)
  cases rest with
  | nil =>
    rw [joinWith_singleton] at ht
    rw [union_single hm] at hunion
    have hlength := congrArg String.length ht
    rw [length_promise, hunion] at hlength
    omega
  | cons next rest =>
    rw [joinWith_cons_cons] at ht
    rcases union_cons (next :: rest) hm with hany | rfl | ⟨more, hmore⟩
    · -- There is a space in front of the bar, and none in a promise of anything.
      have hspace : ' ' ∈ (promiseStart ++ any ++ ">").toList := by
        rw [← hany, hunion, ← ht]
        simp
      exact absurd hspace (by decide)
    · have hfirst := congrArg (fun t => t.toList.head?) ht
      simp [never, promiseStart] at hfirst
    · refine append_bar_ne_promise m (joinWith " | " (next :: rest)) (more ++ ">") ?_
      rw [ht, ← hunion, hmore]
      simp only [String.append_assoc]

/-- If several texts, one of them a promise, read as a promise of what they promise, then there is only the
    one. -/
theorem single_of_cut {front back : List String}
    (h : joinWith " | " (front ++ (promiseStart ++ t ++ ">") :: back) =
      promiseStart ++ joinWith " | " (front ++ t :: back) ++ ">") : front = [] ∧ back = [] := by
  cases front with
  | cons m front =>
    exfalso
    rw [joinWith_append _ (List.cons_ne_nil _ _) (List.cons_ne_nil _ _),
      joinWith_append _ (List.cons_ne_nil _ _) (List.cons_ne_nil _ _)] at h
    refine append_bar_ne_promise (joinWith " | " (m :: front)) _
      (" | " ++ joinWith " | " (t :: back) ++ ">") (h.trans ?_)
    simp only [String.append_assoc]
  | nil =>
    cases back with
    | nil => exact ⟨rfl, rfl⟩
    | cons next back =>
      exfalso
      rw [List.nil_append, List.nil_append, joinWith_cons_cons, joinWith_cons_cons] at h
      have hchars := congrArg String.toList h
      simp at hchars

/-- A type with one promise that reads as a promise of what its members promise has no other member. -/
theorem single_promise (ht : t = joinWith " | " members) (hspelled : t = promiseStart ++ inner ++ ">")
    (hinner : inner = joinWith " | " (members.map awaitedMember)) (hone : promises members = 1) :
    members = [t] ∧ IsPromise t := by
  obtain ⟨m, hm, hpromise⟩ : ∃ m ∈ members, IsPromise m := by
    by_contra hnone
    rw [promises_eq_zero_iff.2 fun m hm hpromise => hnone ⟨m, hm, hpromise⟩] at hone
    cases hone
  obtain ⟨front, back, rfl⟩ := List.append_of_mem hm
  have hsplit : promises front + (promises back + 1) = 1 := by
    simpa [promises, hpromise] using hone
  obtain ⟨x, hx⟩ := hpromise
  have hfront : ∀ m ∈ front, ¬ IsPromise m := promises_eq_zero_iff.1 (by omega)
  have hback : ∀ m ∈ back, ¬ IsPromise m := promises_eq_zero_iff.1 (by omega)
  rw [List.map_append, List.map_cons, map_awaitedMember hfront, map_awaitedMember hback,
    awaitedMember_eq hx] at hinner
  obtain ⟨rfl, rfl⟩ : front = [] ∧ back = [] := by
    refine single_of_cut (t := x) ?_
    rw [← hx.spelled, ← hinner, ← ht, hspelled]
  rw [List.nil_append, joinWith_singleton] at ht
  exact ⟨by rw [ht]; rfl, ht ▸ ⟨x, hx⟩⟩

/-- A type that is cut where one of its members is: it is a single promise, or it has no promise, does not
    look like one and is spelled as a union. -/
def CutByMember (members : List String) (t : String) : Prop :=
  members = [t] ∧ IsPromise t ∨
    (∀ m ∈ members, ¬ IsPromise m) ∧ (∀ inner, t ≠ promiseStart ++ inner ++ ">") ∧ union members = t

/-- **Waiting for a union gives the union of what its members promise** exactly if it is cut by member. -/
theorem awaited_union_iff (hne : members ≠ []) (hwords : ∀ m ∈ members, m ≠ "")
    (ht : t = joinWith " | " members) :
    awaited t = union (members.map awaitedMember) ↔ CutByMember members t := by
  unfold CutByMember
  have hawaited := cutOut_cases promiseStart ">" t
  by_cases hnone : ∀ m ∈ members, ¬ IsPromise m
  · have hsingle : ¬ (members = [t] ∧ IsPromise t) := by
      rintro ⟨rfl, hpromise⟩
      exact hnone t (List.mem_singleton_self t) hpromise
    rw [map_awaitedMember hnone, or_iff_right hsingle, and_iff_right hnone]
    rcases hawaited with ⟨inner, hspelled, hcut⟩ | ⟨hplain, hcut⟩
    · have hne_union := union_ne_of_cut hne hwords (ht.symm.trans hspelled)
      exact ⟨fun h => absurd (h.symm.trans hcut) hne_union, fun h => absurd hspelled (h.1 inner)⟩
    · rw [and_iff_right hplain, eq_comm]
      exact Eq.congr_right hcut
  · have hsome : 0 < promises members := Nat.pos_of_ne_zero (mt promises_eq_zero_iff.1 hnone)
    rw [or_iff_left fun h => hnone h.1]
    rcases hawaited with ⟨inner, hspelled, hcut⟩ | ⟨hplain, hcut⟩
    · constructor
      · intro h
        have hinner : inner = union (members.map awaitedMember) := hcut.symm.trans h
        have hlength : (joinWith " | " members).length = inner.length + 9 := by
          rw [← ht, hspelled, length_promise]
        obtain ⟨hle, hall⟩ := length_union_awaited hne hwords
        rw [← hinner] at hle hall
        have hone : promises members = 1 := by omega
        exact single_promise ht hspelled (hall (by omega)) hone
      · rintro ⟨rfl, x, hx⟩
        rw [List.map_singleton, awaitedMember_eq hx, union_single hx.ne_empty, hx.spelled, awaited_promise]
    · constructor
      · intro h
        have hlength := (length_union_awaited hne hwords).1
        rw [← h, ← ht, show awaited t = t from hcut] at hlength
        omega
      · rintro ⟨-, x, hx⟩
        exact absurd hx.spelled (hplain x)

/-! ## Functions and expressions -/

section
variable {scope : Scope} {limit : Nat} {resolving : List String} {n e c : Node} {type : String}

theorem infer_await (hkind : n.kind = .await) (hfirst : n.named.head? = some e)
    (htype : infer scope limit resolving e = some type) :
    infer scope (limit + 1) resolving n = some (awaited type) := by
  simp only [infer, typeOf, hkind, inferFirst, hfirst, htype, Option.map_some]

theorem infer_comment (hc : c.isComment = true) : infer scope (limit + 1) resolving c = some any := by
  have hkind : c.kind = .comment := by simpa [Node.isComment] using hc
  simp only [infer, typeOf, hkind]

/-- The first operand is the first child in brackets or names, unless a comment stands in front of it. -/
theorem head?_operands (h : n.operands.head? = some e) :
    n.named.head? = some e ∨
      n.named.head? ≠ some e ∧ ∃ c, n.named.head? = some c ∧ c.isComment = true := by
  unfold Node.operands at h
  cases hnamed : n.named with
  | nil => simp [hnamed] at h
  | cons c rest =>
    by_cases hc : c.isComment = true
    · refine .inr ⟨?_, c, rfl, hc⟩
      rintro ⟨⟩
      have he := List.mem_of_mem_head? h
      simp [hc] at he
    · rw [hnamed, List.filter_cons_of_pos (by simpa using hc)] at h
      exact .inl h

/-- **What an asynchronous function returns, and what waiting gives.**  Without a written type, an
    asynchronous function returns one promise exactly if the type of its body starts as none and is well
    formed, or is one promise itself; in the first case waiting for it gives the type of the body.  Waiting
    for an expression, whose type is a union of any members, gives the union of what the members promise,
    the others as they are, exactly if the type is a single promise, or has no promise among its members,
    does not look like one and is spelled as a union.  Behind a comment there is `any` in any case. -/
theorem promise_awaited (scope : Scope) (limit : Nat) (resolving : List String) :
    (∀ (f : Node) (returned : String), isAsync f = true → typeTextOf (f.field? .returnType) = none →
      returnType (infer scope limit) resolving f = some returned →
      ∃ t, bodyType (infer scope limit) resolving f = some t ∧
        (IsPromise returned ↔ if startsWith promiseStart t then IsPromise t else WellFormed t) ∧
        (startsWith promiseStart t = false → awaited returned = t)) ∧
    ∀ (n e : Node) (type : String) (members : List String), n.kind = .await → n.operands.head? = some e →
      infer scope limit resolving e = some type →
      type = joinWith " | " members → members ≠ [] → (∀ m ∈ members, m ≠ "") →
      (infer scope (limit + 1) resolving n = some (union (members.map awaitedMember)) ↔
        n.named.head? = some e ∧ CutByMember members type ∨
        n.named.head? ≠ some e ∧ union (members.map awaitedMember) = any) := by
  refine ⟨fun f returned hasync hwritten hreturned => ?_,
    fun n e type members hkind hoperand htype hspelled hne hwords => ?_⟩
  · rw [returnType, hwritten] at hreturned
    obtain ⟨t, hbody, rfl⟩ := Option.map_eq_some_iff.1 hreturned
    rw [if_pos hasync]
    refine ⟨t, hbody, isPromise_promiseOf_iff t, fun hstart => ?_⟩
    rw [promiseOf_eq hstart, awaited_promise]
  · rcases head?_operands hoperand with hfirst | ⟨hother, c, hfirst, hc⟩
    · rw [infer_await hkind hfirst htype, Option.some_inj, awaited_union_iff hne hwords hspelled,
        and_iff_right hfirst, or_iff_left fun h => h.1 hfirst]
    · cases limit with
      | zero => cases htype
      | succ limit =>
        have hany : awaited any = any := by decide
        rw [infer_await hkind hfirst (infer_comment hc), hany, Option.some_inj,
          or_iff_right fun h => hother h.1, and_iff_right hother, eq_comm]

end

/-- A scope with a promise and a union of promises. -/
def promisedScope : Scope :=
  [("page", .annotated "Promise<string>"), ("pages", .annotated "Promise<string> | Promise<number>")]

/-- An asynchronous function that gives a list of one promise. -/
def listingFunction : Node :=
  .planted .arrowFunction none "async () => [page]" [.planted .token none "async" [],
    .planted .array (some .body) "[page]" [.planted .identifier none "page" []]]

/-- The name of the union of promises. -/
def pagesName : Node :=
  .planted .identifier none "pages" []

/-- Waiting for the union of promises. -/
def pagesAwaited : Node :=
  .planted .await none "await pages" [pagesName]

/-- A list of promises starts as a promise and is none, and a union of promises is cut across its members. -/
theorem promise_awaited_pages :
    returnType (infer promisedScope 2) [] listingFunction = some "Promise<string>[]" ∧
    ¬ IsPromise "Promise<string>[]" ∧
    infer promisedScope 2 [] pagesAwaited = some "string> | Promise<number" ∧
    infer promisedScope 2 [] pagesAwaited ≠ some "string | number" := by
  have hwritten : typeTextOf (listingFunction.field? .returnType) = none := by decide
  have hreturned : returnType (infer promisedScope 2) [] listingFunction = some "Promise<string>[]" := by
    decide +kernel
  have hoperand : infer promisedScope 1 [] pagesName = some "Promise<string> | Promise<number>" := by
    decide +kernel
  have hpromised : ["Promise<string>", "Promise<number>"].map awaitedMember = ["string", "number"] := by
    decide +kernel
  obtain ⟨t, hbody, hpromise, -⟩ :=
    (promise_awaited promisedScope 2 []).1 listingFunction _ (by decide) hwritten hreturned
  have ht : bodyType (infer promisedScope 2) [] listingFunction = some "Promise<string>[]" := by
    decide +kernel
  obtain rfl : t = "Promise<string>[]" := Option.some.inj (hbody.symm.trans ht)
  have hawaited := (promise_awaited promisedScope 1 []).2 pagesAwaited pagesName _
    ["Promise<string>", "Promise<number>"] rfl rfl hoperand (by decide) (by decide) (by decide)
  rw [hpromised] at hawaited
  refine ⟨hreturned, ?_, by decide +kernel, fun h => ?_⟩
  · rw [hpromise]
    decide +kernel
  · rcases hawaited.1 h with ⟨-, ⟨hsingle, -⟩ | ⟨hnone, -⟩⟩ | ⟨-, hany⟩
    · exact absurd hsingle (by decide)
    · exact hnone "Promise<string>" (List.mem_cons_self ..) (by decide +kernel)
    · exact absurd hany (by decide)

end RouteAtlas.Typing
