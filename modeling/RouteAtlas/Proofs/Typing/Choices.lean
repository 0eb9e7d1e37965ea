/-
  RouteAtlas: unions of unions.

  An expression chooses between others, in any nesting, and each choice makes a union of the texts of its
  sides.  These may be unions already, and a type that stands on both sides is shown twice, unless the
  sides are the same text.

  * `Choice` is a nested choice: `Choice.Spells` says of which expressions, `Choice.text` is the union of
    unions that it shows;
  * `SingleType t`: the text `t` is no union, its bars stand inside of brackets;
    `joinWith_bars_injective`: what is joined of such texts can be taken apart in one way only;
  * `text_eq`: a choice shows its `members`, which `distinct_members` compares with its leaves;
  * `nodup_members_iff`: the members are distinct exactly if the sides of each choice are `Apart`;
  * `choice_flat_iff` joins these.
-/
import RouteAtlas.Proofs.Text.Balance
import RouteAtlas.Proofs.Typing.Limit
import RouteAtlas.Proofs.Typing.Union

namespace RouteAtlas.Typing

open RouteAtlas.Code RouteAtlas.Text

/-! ## Texts that are no unions -/

/-- The text of a type that is no union: a bar stands only inside of brackets, and none at the end. -/
structure SingleType (t : String) : Prop where
  ne_empty : t ≠ ""
  balanced : Balanced t
  unbarred : ∀ front back, t = front ++ " | " ++ back → ¬ Balanced front
  ended : endsWith " |" t = false

/-- A text without any bar is no union. -/
theorem SingleType.of_no_bar {t : String} (hne : t ≠ "") (ht : Balanced t) (hbar : '|' ∉ t.toList) :
    SingleType t where
  ne_empty := hne
  balanced := ht
  unbarred := by
    rintro front back rfl
    simp at hbar
  ended := by
    refine Bool.eq_false_iff.2 fun hend => ?_
    obtain ⟨rest, rfl⟩ := endsWith_iff.1 hend
    simp at hbar

theorem singleType_any : SingleType any := .of_no_bar (by decide) (by decide) (by decide)

theorem singleType_never : SingleType never := .of_no_bar (by decide) (by decide) (by decide)

/-- What can come behind a member of a union: nothing, or a bar and more members. -/
def Continues (rest : String) : Prop :=
  rest = "" ∨ ∃ back, rest = " | " ++ back

theorem joinWith_cons_continues (t : String) : ∀ ts : List String,
    ∃ rest, joinWith " | " (t :: ts) = t ++ rest ∧ Continues rest
  | [] => ⟨"", by simp, .inl rfl⟩
  | next :: ts =>
    ⟨" | " ++ joinWith " | " (next :: ts), by rw [joinWith_cons_cons, String.append_assoc], .inr ⟨_, rfl⟩⟩

section
variable {t u x rest rest' : String}

/-- Of two members that start the same text, the longer one has nothing behind the shorter one. -/
theorem SingleType.eq_empty (ht : SingleType t) (htx : SingleType (t ++ x)) (hrest : Continues rest)
    (hrest' : Continues rest') (h : rest = x ++ rest') : x = "" := by
  rcases hrest with rfl | ⟨back, rfl⟩
  · exact (String.append_eq_empty_iff.1 h.symm).1
  have hchars : ' ' :: '|' :: ' ' :: back.toList = x.toList ++ rest'.toList := by
    have := congrArg String.toList h
    rwa [String.toList_append, String.toList_append] at this
  -- What is longer by `x` would go on with a blank and a bar, which no member ends with, or with a whole
  -- bar between two types, which no member has.
  match hx : x.toList with
  | [] => exact String.toList_eq_nil_iff.1 hx
  | [c] =>
    rw [hx] at hchars
    obtain ⟨-, hchars⟩ := List.cons.inj hchars
    rcases hrest' with rfl | ⟨back', rfl⟩
    · cases hchars
    · rw [String.toList_append] at hchars
      cases hchars
  | [c, d] =>
    rw [hx] at hchars
    simp only [List.cons_append, List.cons.injEq] at hchars
    obtain ⟨hc, hd, -⟩ := hchars
    have hbar : x = " |" := String.toList_inj.1 (by rw [hx, ← hc, ← hd]; rfl)
    have hend := endsWith_iff.2 ⟨t, congrArg (t ++ ·) hbar⟩
    exact absurd (hend.symm.trans htx.ended) (by decide)
  | c :: d :: e :: more =>
    rw [hx] at hchars
    simp only [List.cons_append, List.cons.injEq] at hchars
    obtain ⟨hc, hd, he, -⟩ := hchars
    have hbar : x = " | " ++ .ofList more := by
      apply String.toList_inj.1
      rw [hx, ← hc, ← hd, ← he, String.toList_append]
      simp
    refine absurd ht.balanced (htx.unbarred t (.ofList more) ?_)
    rw [hbar, String.append_assoc]

/-- Texts that start with a member start with one only. -/
theorem SingleType.first_unique (ht : SingleType t) (hu : SingleType u) (hrest : Continues rest)
    (hrest' : Continues rest') (h : t ++ rest = u ++ rest') : t = u := by
  have hchars : t.toList ++ rest.toList = u.toList ++ rest'.toList := by
    rw [← String.toList_append, ← String.toList_append, h]
  rcases List.append_eq_append_iff.1 hchars with ⟨x, hux, hx⟩ | ⟨x, htx, hx⟩
  · have hux : u = t ++ .ofList x := by
      apply String.toList_inj.1
      rw [hux, String.toList_append, String.toList_ofList]
    have hx : rest = .ofList x ++ rest' := by
      apply String.toList_inj.1
      rw [hx, String.toList_append, String.toList_ofList]
    rw [hux, ht.eq_empty (hux ▸ hu) hrest hrest' hx, String.append_empty]
  · have htx : t = u ++ .ofList x := by
      apply String.toList_inj.1
      rw [htx, String.toList_append, String.toList_ofList]
    have hx : rest' = .ofList x ++ rest := by
      apply String.toList_inj.1
      rw [hx, String.toList_append, String.toList_ofList]
    rw [htx, hu.eq_empty (htx ▸ ht) hrest' hrest hx, String.append_empty]

end

theorem joinWith_ne_empty {ts : List String} (hne : ts ≠ []) (hwords : ∀ t ∈ ts, t ≠ "") :
    joinWith " | " ts ≠ "" := by
  obtain ⟨t, rest, rfl⟩ := List.exists_cons_of_ne_nil hne
  obtain ⟨more, hmore⟩ := exists_joinWith_cons " | " t rest
  intro hempty
  rw [hmore] at hempty
  exact hwords t (List.mem_cons_self ..) (String.append_eq_empty_iff.1 hempty).1

/-- Joined with bars, members can be taken apart in one way only. -/
theorem joinWith_bars_injective : ∀ {ts us : List String}, (∀ t ∈ ts, SingleType t) →
    (∀ u ∈ us, SingleType u) → joinWith " | " ts = joinWith " | " us → ts = us
  | [], [], _, _, _ => rfl
  | [], u :: us, _, hus, h =>
    absurd h.symm (joinWith_ne_empty (List.cons_ne_nil u us) fun u hu => (hus u hu).ne_empty)
  | t :: ts, [], hts, _, h =>
    absurd h (joinWith_ne_empty (List.cons_ne_nil t ts) fun t ht => (hts t ht).ne_empty)
  | t :: ts, u :: us, hts, hus, h => by
    obtain ⟨ht, hts'⟩ := List.forall_mem_cons.1 hts
    obtain ⟨hu, hus'⟩ := List.forall_mem_cons.1 hus
    have hfirst : t = u := by
      obtain ⟨rest, hrest, hcontinues⟩ := joinWith_cons_continues t ts
      obtain ⟨rest', hrest', hcontinues'⟩ := joinWith_cons_continues u us
      rw [hrest, hrest'] at h
      exact ht.first_unique hu hcontinues hcontinues' h
    subst hfirst
    refine congrArg (t :: ·) ?_
    match ts, us, hts', hus' with
    | [], [], _, _ => rfl
    | [], next :: us, _, _ =>
      rw [joinWith_singleton, joinWith_cons_cons, String.append_assoc] at h
      exact absurd (String.append_eq_left_iff.1 h.symm) (by simp)
    | next :: ts, [], _, _ =>
      rw [joinWith_singleton, joinWith_cons_cons, String.append_assoc] at h
      exact absurd (String.append_eq_left_iff.1 h) (by simp)
    | next :: ts, next' :: us, hts', hus' =>
      rw [joinWith_cons_cons, joinWith_cons_cons] at h
      exact joinWith_bars_injective hts' hus' ((String.append_right_inj _).1 h)

/-! ## Nested choices -/

/-- A choice between things, in any nesting. -/
inductive Choice (α : Type) where
  | one (a : α)
  | either (left right : Choice α)

namespace Choice

variable {α β : Type}

/-- What a choice is between, from left to right. -/
def leaves : Choice α → List α
  | one a => [a]
  | either l r => l.leaves ++ r.leaves

def map (f : α → β) : Choice α → Choice β
  | one a => one (f a)
  | either l r => either (l.map f) (r.map f)

theorem leaves_map (f : α → β) : ∀ c : Choice α, (c.map f).leaves = c.leaves.map f
  | one _ => rfl
  | either l r => by rw [map, leaves, leaves, leaves_map f l, leaves_map f r, List.map_append]

/-- A nested choice that an expression spells: with conditions, with operators that give one of their
    operands, and with parentheses, of which what stands first in them counts. -/
inductive Spells : Choice Node → Node → Prop
  | leaf (e : Node) : Spells (one e) e
  | parenthesized {c : Choice Node} {n e : Node} (hkind : n.kind = .parenthesized)
      (hfirst : n.named.head? = some e) (he : Spells c e) : Spells c n
  | ternary {l r : Choice Node} {n yes no : Node} (hkind : n.kind = .ternary)
      (hyes : n.field? .consequence = some yes) (hno : n.field? .alternative = some no)
      (hl : Spells l yes) (hr : Spells r no) : Spells (either l r) n
  | operator {l r : Choice Node} {n left right : Node} (hkind : n.kind = .binary)
      (hop : n.fieldText .operator ∈ choices)
      (hleft : n.field? .left = some left) (hright : n.field? .right = some right)
      (hl : Spells l left) (hr : Spells r right) : Spells (either l r) n

/-- The union of unions that a choice shows. -/
def text : Choice String → String
  | one t => t
  | either l r => union [l.text, r.text]

/-- No choice is between sides that share a type, unless both sides are the same text. -/
def Apart : Choice String → Prop
  | one _ => True
  | either l r => l.Apart ∧ r.Apart ∧ (l.text = r.text ∨ ∀ t ∈ l.leaves, t ∈ r.leaves → t = never)

/-- The members that a choice shows. -/
def members : Choice String → List String
  | one t => if t = never then [] else [t]
  | either l r => if l.text = r.text then l.members else l.members ++ r.members

/-! ### The members of a choice -/

theorem mem_leaves_of_mem_members {t : String} : ∀ {c : Choice String}, t ∈ c.members →
    t ∈ c.leaves ∧ t ≠ never
  | one u, h => by
    unfold members at h
    split at h
    · cases h
    · rename_i hu
      obtain rfl := List.mem_singleton.1 h
      exact ⟨List.mem_singleton_self t, hu⟩
  | either l r, h => by
    unfold members at h
    split at h
    · obtain ⟨ht, hnever⟩ := mem_leaves_of_mem_members h
      exact ⟨List.mem_append_left _ ht, hnever⟩
    · rcases List.mem_append.1 h with h | h
      · obtain ⟨ht, hnever⟩ := mem_leaves_of_mem_members h
        exact ⟨List.mem_append_left _ ht, hnever⟩
      · obtain ⟨ht, hnever⟩ := mem_leaves_of_mem_members h
        exact ⟨List.mem_append_right _ ht, hnever⟩

theorem text_ne_empty : ∀ {c : Choice String}, (∀ t ∈ c.leaves, t ≠ "") → c.text ≠ ""
  | one t, h => h t (List.mem_singleton_self t)
  | either l r, h => by
    obtain ⟨hl, hr⟩ := List.forall_mem_append.1 h
    have hsides : ∀ t ∈ [l.text, r.text], t ≠ "" := by
      simpa using ⟨text_ne_empty hl, text_ne_empty hr⟩
    rw [text, union_eq]
    refine joinWith_ne_empty (unionMembers_ne_nil _) fun t ht => ?_
    rcases mem_unionMembers ht with rfl | ht
    · decide
    · exact hsides t ht

section
variable {c l r : Choice String}

/-- What members show: without any, there is never a value. -/
def shownAs (ms : List String) : String :=
  if ms = [] then never else joinWith " | " ms

theorem shownAs_ne_any {ms : List String} (hms : ∀ t ∈ ms, SingleType t) (hany : any ∉ ms) :
    shownAs ms ≠ any := by
  unfold shownAs
  split
  · decide
  · rw [← joinWith_singleton " | " any]
    intro h
    have := joinWith_bars_injective hms (by simpa using singleType_any) h
    exact hany (this ▸ List.mem_singleton_self any)

theorem shownAs_eq_never_iff {ms : List String} (hms : ∀ t ∈ ms, SingleType t) (hnever : never ∉ ms) :
    shownAs ms = never ↔ ms = [] := by
  unfold shownAs
  split
  · rename_i hnil
    exact iff_of_true rfl hnil
  · rename_i hne
    refine iff_of_false ?_ hne
    rw [← joinWith_singleton " | " never]
    intro h
    have := joinWith_bars_injective hms (by simpa using singleType_never) h
    exact hnever (this ▸ List.mem_singleton_self never)

theorem shownAs_injective {ms ms' : List String} (hms : ∀ t ∈ ms, SingleType t ∧ t ≠ never)
    (hms' : ∀ t ∈ ms', SingleType t ∧ t ≠ never) (h : shownAs ms = shownAs ms') : ms = ms' := by
  by_cases hnil : ms' = []
  · subst hnil
    exact (shownAs_eq_never_iff (fun t ht => (hms t ht).1) fun hmem => (hms _ hmem).2 rfl).1 h
  · by_cases hnil' : ms = []
    · subst hnil'
      exact ((shownAs_eq_never_iff (fun t ht => (hms' t ht).1) fun hmem => (hms' _ hmem).2 rfl).1 h.symm).symm
    · rw [shownAs, shownAs, if_neg hnil, if_neg hnil'] at h
      exact joinWith_bars_injective (fun t ht => (hms t ht).1) (fun t ht => (hms' t ht).1) h

theorem single_members (h : ∀ t ∈ c.leaves, SingleType t) : ∀ t ∈ c.members, SingleType t ∧ t ≠ never :=
  fun t ht => ⟨h t (mem_leaves_of_mem_members ht).1, (mem_leaves_of_mem_members ht).2⟩

/-- A choice that shows its members does not show `any`, and `never` only without any members. -/
theorem shown_members (h : ∀ t ∈ c.leaves, SingleType t) (hany : any ∉ c.leaves)
    (htext : c.text = shownAs c.members) : c.text ≠ any ∧ (c.text = never ↔ c.members = []) := by
  have hsingle := single_members h
  rw [htext]
  exact ⟨shownAs_ne_any (fun t ht => (hsingle t ht).1) fun hmem => hany (mem_leaves_of_mem_members hmem).1,
    shownAs_eq_never_iff (fun t ht => (hsingle t ht).1) fun hmem => (hsingle _ hmem).2 rfl⟩

/-- Without a type that absorbs the others, a choice shows its members. -/
theorem text_eq : ∀ {c : Choice String}, (∀ t ∈ c.leaves, SingleType t) → any ∉ c.leaves →
    c.text = shownAs c.members
  | one t, _, _ => by
    rw [text, members, shownAs]
    by_cases ht : t = never
    · simp [ht]
    · simp [ht]
  | either l r, h, hany => by
    obtain ⟨hl, hr⟩ := List.forall_mem_append.1 h
    obtain ⟨hanyl, hanyr⟩ := not_or.1 (mt List.mem_append.2 hany)
    have ihl := text_eq hl hanyl
    have ihr := text_eq hr hanyr
    obtain ⟨hnol, hneverl⟩ := shown_members hl hanyl ihl
    obtain ⟨hnor, hneverr⟩ := shown_members hr hanyr ihr
    have hwordl := text_ne_empty fun t ht => (hl t ht).ne_empty
    have hwordr := text_ne_empty fun t ht => (hr t ht).ne_empty
    rw [text, union_pair hwordl hwordr, if_neg (not_or.2 ⟨hnol, hnor⟩), members]
    by_cases hsame : l.text = r.text
    · rw [if_pos hsame, if_pos hsame, ihl]
    rw [if_neg hsame, if_neg hsame]
    by_cases hl' : l.text = never
    · rw [if_pos hl', hneverl.1 hl', List.nil_append, ihr]
    rw [if_neg hl']
    by_cases hr' : r.text = never
    · rw [if_pos hr', hneverr.1 hr', List.append_nil, ihl]
    have hmembersl := mt hneverl.2 hl'
    have hmembersr := mt hneverr.2 hr'
    rw [if_neg hr', ihl, ihr, shownAs, shownAs, shownAs, if_neg hmembersl, if_neg hmembersr,
      if_neg (by simp [hmembersl]), joinWith_append " | " hmembersr hmembersl]

theorem text_eq_any_iff : ∀ {c : Choice String}, (∀ t ∈ c.leaves, SingleType t) →
    (c.text = any ↔ any ∈ c.leaves)
  | one t, _ => by rw [text, leaves, List.mem_singleton, eq_comm]
  | either l r, h => by
    obtain ⟨hl, hr⟩ := List.forall_mem_append.1 h
    have hwordl := text_ne_empty fun t ht => (hl t ht).ne_empty
    have hwordr := text_ne_empty fun t ht => (hr t ht).ne_empty
    constructor
    · intro htext
      by_contra hany
      exact (shown_members h hany (text_eq h hany)).1 htext
    · intro hany
      rw [text, union_pair hwordl hwordr, if_pos]
      rw [text_eq_any_iff hl, text_eq_any_iff hr]
      exact List.mem_append.1 hany

/-- Without a type that absorbs the others, sides that show the same text have the same members. -/
theorem members_eq_of_text_eq (hl : ∀ t ∈ l.leaves, SingleType t) (hr : ∀ t ∈ r.leaves, SingleType t)
    (hanyl : any ∉ l.leaves) (hanyr : any ∉ r.leaves) (h : l.text = r.text) : l.members = r.members := by
  rw [text_eq hl hanyl, text_eq hr hanyr] at h
  exact shownAs_injective (single_members hl) (single_members hr) h

/-- The members are the leaves that have a value, some of them left out. -/
theorem distinct_members : ∀ {c : Choice String}, (∀ t ∈ c.leaves, SingleType t) → any ∉ c.leaves →
    distinct c.members = distinct (c.leaves.filter fun t => t ≠ never)
  | one t, _, _ => by
    rw [members, leaves]
    by_cases ht : t = never
    · simp [ht]
    · simp [ht]
  | either l r, h, hany => by
    obtain ⟨hl, hr⟩ := List.forall_mem_append.1 h
    obtain ⟨hanyl, hanyr⟩ := not_or.1 (mt List.mem_append.2 hany)
    have ihl := distinct_members hl hanyl
    have ihr := distinct_members hr hanyr
    rw [members, leaves, List.filter_append, distinct_append, ← ihl, ← ihr, ← distinct_append]
    split
    · rename_i hsame
      rw [members_eq_of_text_eq hl hr hanyl hanyr hsame, distinct_append_of_subset fun _ ht => ht]
    · rfl

theorem mem_members_iff (h : ∀ t ∈ c.leaves, SingleType t) (hany : any ∉ c.leaves) {t : String} :
    t ∈ c.members ↔ t ∈ c.leaves ∧ t ≠ never := by
  refine ⟨mem_leaves_of_mem_members, fun ⟨ht, hnever⟩ => ?_⟩
  have hmem : t ∈ distinct (c.leaves.filter fun t => t ≠ never) :=
    mem_distinct.2 ⟨List.mem_filter.2 ⟨ht, by simpa using hnever⟩, (h t ht).ne_empty⟩
  rw [← distinct_members h hany] at hmem
  exact (mem_distinct.1 hmem).1

/-- **When no member is repeated.**  The members are distinct exactly if no choice is between different
    sides that share one. -/
theorem nodup_members_iff : ∀ {c : Choice String}, (∀ t ∈ c.leaves, SingleType t) → any ∉ c.leaves →
    (c.members.Nodup ↔ c.Apart)
  | one t, _, _ => by
    rw [members, Apart]
    split <;> simp
  | either l r, h, hany => by
    obtain ⟨hl, hr⟩ := List.forall_mem_append.1 h
    obtain ⟨hanyl, hanyr⟩ := not_or.1 (mt List.mem_append.2 hany)
    have ihl := nodup_members_iff hl hanyl
    have ihr := nodup_members_iff hr hanyr
    rw [members, Apart, ← ihl, ← ihr]
    split
    · rename_i hsame
      rw [← members_eq_of_text_eq hl hr hanyl hanyr hsame]
      simp [hsame]
    · rename_i hsame
      have hdisjoint : List.Disjoint l.members r.members ↔ ∀ t ∈ l.leaves, t ∈ r.leaves → t = never := by
        constructor
        · intro hd t htl htr
          by_contra hnever
          exact hd ((mem_members_iff hl hanyl).2 ⟨htl, hnever⟩) ((mem_members_iff hr hanyr).2 ⟨htr, hnever⟩)
        · intro hd t htl htr
          obtain ⟨htl, hnever⟩ := mem_leaves_of_mem_members htl
          exact hnever (hd t htl (mem_leaves_of_mem_members htr).1)
      rw [List.nodup_append', hdisjoint, or_iff_right hsame]

theorem members_eq_nil_iff (h : ∀ t ∈ c.leaves, SingleType t) (hany : any ∉ c.leaves) :
    c.members = [] ↔ ∀ t ∈ c.leaves, t = never := by
  rw [List.eq_nil_iff_forall_not_mem]
  refine forall_congr' fun t => ?_
  rw [mem_members_iff h hany, not_and, not_not]

theorem text_eq_never_iff (h : ∀ t ∈ c.leaves, SingleType t) :
    c.text = never ↔ ∀ t ∈ c.leaves, t = never := by
  by_cases hany : any ∈ c.leaves
  · rw [(text_eq_any_iff h).2 hany]
    exact iff_of_false (by decide) fun hall => absurd (hall any hany) (by decide)
  · rw [(shown_members h hany (text_eq h hany)).2]
    exact members_eq_nil_iff h hany

/-- A choice shows each type once exactly if its sides are apart. -/
theorem text_eq_joined_iff (h : ∀ t ∈ c.leaves, SingleType t) (hany : c.text ≠ any)
    (hnever : c.text ≠ never) :
    c.text = joined (c.leaves.filter fun t => t ≠ never) ↔ c.Apart := by
  have hany := mt (text_eq_any_iff h).2 hany
  have hsome : c.members ≠ [] := fun hnil => hnever (by rw [text_eq h hany, hnil]; rfl)
  have hsingle : ∀ t ∈ c.members, SingleType t := fun t ht => (single_members h t ht).1
  have hdistinct : ∀ t ∈ distinct c.members, SingleType t := fun t ht => hsingle t (mem_distinct.1 ht).1
  rw [text_eq h hany, shownAs, if_neg hsome, joined, ← distinct_members h hany,
    ← nodup_members_iff h hany]
  constructor
  · intro htext
    rw [joinWith_bars_injective hsingle hdistinct htext]
    exact nodup_distinct _
  · intro hnodup
    rw [distinct_of_nodup hnodup fun t ht => (hsingle t ht).ne_empty]

end

end Choice

/-! ## Expressions -/

section
variable {scope : Scope} {limit : Nat} {resolving : List String}

/-- What two sides show, with what they need to be shown. -/
theorem infer_sides {yes no : Node} {s t : String} {m m' : Nat}
    (hyes : infer scope (limit + m) resolving yes = some s)
    (hno : infer scope (limit + m') resolving no = some t) :
    infer scope (limit + (m + m')) resolving yes = some s ∧
      infer scope (limit + (m + m')) resolving no = some t := by
  rw [← Nat.add_assoc]
  refine ⟨infer_mono m' hyes, ?_⟩
  rw [Nat.add_right_comm]
  exact infer_mono m hno

/-- A choice between expressions that have types has the union of unions as its type, below some more. -/
theorem Choice.infer_spells {typed : Node → String} : ∀ {c : Choice Node} {n : Node}, c.Spells n →
    (∀ e ∈ c.leaves, infer scope limit resolving e = some (typed e)) →
      ∃ more, infer scope (limit + more) resolving n = some (c.map typed).text := by
  intro c n hn
  induction hn with
  | leaf e => exact fun h => ⟨0, h e (List.mem_singleton_self e)⟩
  | parenthesized hkind hfirst _ ih =>
    intro h
    obtain ⟨more, he⟩ := ih h
    refine ⟨more + 1, ?_⟩
    show infer scope (limit + more + 1) resolving _ = _
    simp only [infer, typeOf, hkind, inferFirst, hfirst, he]
  | ternary hkind hyes hno _ _ ihl ihr =>
    intro h
    obtain ⟨hl, hr⟩ := List.forall_mem_append.1 h
    obtain ⟨m, hl⟩ := ihl hl
    obtain ⟨m', hr⟩ := ihr hr
    obtain ⟨hl, hr⟩ := infer_sides hl hr
    refine ⟨m + m' + 1, ?_⟩
    show infer scope (limit + (m + m') + 1) resolving _ = _
    simp only [infer, typeOf, hkind, inferField, hyes, hno, hl, hr, Option.bind_some,
      Option.map_some, Choice.map, Choice.text]
  | operator hkind hop hleft hright _ _ ihl ihr =>
    intro h
    obtain ⟨hl, hr⟩ := List.forall_mem_append.1 h
    obtain ⟨m, hl⟩ := ihl hl
    obtain ⟨m', hr⟩ := ihr hr
    obtain ⟨hl, hr⟩ := infer_sides hl hr
    have hcompares : ∀ op ∈ choices, op ∉ comparisons := by decide
    refine ⟨m + m' + 1, ?_⟩
    show infer scope (limit + (m + m') + 1) resolving _ = _
    simp only [infer, typeOf, hkind, binaryType, inferField, hleft, hright, hl, hr, operatorType,
      List.contains_iff_mem, hcompares _ hop, hop, if_true, if_false, Option.bind_some, Option.map_some,
      Choice.map, Choice.text]

/-- **Unions of unions.**  An expression that chooses between others, in any nesting, has a type where
    these have one, and the same at each limit that is high enough.  If these types are no unions
    themselves, it is `any` exactly if one of them is, and `never` exactly if all of them are; otherwise it
    shows each of them once, in their order and without `never`, exactly if no choice on the way is between
    different sides that share a type. -/
theorem choice_flat_iff (scope : Scope) (limit : Nat) (resolving : List String) {c : Choice Node} {n : Node}
    (hn : c.Spells n) (typed : Node → String)
    (htypes : ∀ e ∈ c.leaves, infer scope limit resolving e = some (typed e))
    (hsingle : ∀ e ∈ c.leaves, SingleType (typed e)) :
    ∃ shown, (∃ more, infer scope (limit + more) resolving n = some shown) ∧
      (∀ limit' type, infer scope limit' resolving n = some type → type = shown) ∧
      (shown = any ↔ ∃ e ∈ c.leaves, typed e = any) ∧
      (shown = never ↔ ∀ e ∈ c.leaves, typed e = never) ∧
      (shown ≠ any → shown ≠ never →
        (shown = joined ((c.leaves.map typed).filter fun t => t ≠ never) ↔ (c.map typed).Apart)) := by
  have hleaves : ∀ t ∈ (c.map typed).leaves, SingleType t := by
    rw [Choice.leaves_map]
    exact List.forall_mem_map.2 hsingle
  obtain ⟨more, hshown⟩ := Choice.infer_spells hn htypes
  refine ⟨(c.map typed).text, ⟨more, hshown⟩, fun _ _ h => infer_unique h hshown, ?_, ?_, ?_⟩
  · rw [Choice.text_eq_any_iff hleaves, Choice.leaves_map, List.mem_map]
  · rw [Choice.text_eq_never_iff hleaves, Choice.leaves_map, List.forall_mem_map]
  · rw [← Choice.leaves_map]
    exact Choice.text_eq_joined_iff hleaves

end

/-- A text, a number and another text. -/
def quotedA : Node := .planted .string (some .consequence) "'a'" []

def numberOne : Node := .planted .number (some .alternative) "1" []

def quotedB : Node := .planted .string (some .right) "'b'" []

/-- The expression `(c ? 'a' : 1) || 'b'`. -/
def choiceOfChoice : Node :=
  .planted .binary none "(c ? 'a' : 1) || 'b'" [
    .planted .parenthesized (some .left) "(c ? 'a' : 1)" [
      .planted .ternary none "c ? 'a' : 1" [.planted .identifier none "c" [],
        quotedA, numberOne]],
    .planted .token (some .operator) "||" [], quotedB]

/-- Of a choice between a choice and one of its sides, the shared type is shown twice. -/
theorem choice_flat_iff_repeated :
    infer [] 4 [] choiceOfChoice = some "string | number | string" ∧
    "string | number | string" ≠ joined ["string", "number", "string"] := by
  have hspells : (Choice.either (.either (.one quotedA) (.one numberOne)) (.one quotedB)).Spells
      choiceOfChoice :=
    .operator rfl (by decide) rfl rfl
      (.parenthesized rfl rfl (.ternary rfl rfl rfl (.leaf _) (.leaf _))) (.leaf _)
  have hstring : SingleType "string" := .of_no_bar (by decide) (by decide) (by decide)
  have hnumber : SingleType "number" := .of_no_bar (by decide) (by decide) (by decide)
  obtain ⟨shown, -, hunique, -, -, hflat⟩ := choice_flat_iff [] 1 [] hspells
    (fun e => if e.kind = .string then "string" else "number")
    (List.forall_mem_cons.2 ⟨by decide +kernel, List.forall_mem_cons.2 ⟨by decide +kernel,
      List.forall_mem_singleton.2 (by decide +kernel)⟩⟩)
    (List.forall_mem_cons.2 ⟨hstring, List.forall_mem_cons.2 ⟨hnumber,
      List.forall_mem_singleton.2 hstring⟩⟩)
  have hshown : infer [] 4 [] choiceOfChoice = some "string | number | string" := by decide +kernel
  obtain rfl := hunique 4 _ hshown
  refine ⟨hshown, fun hjoined => ?_⟩
  obtain ⟨-, -, hsides | hsides⟩ := (hflat (by decide) (by decide)).1 hjoined
  · exact absurd hsides (by decide +kernel)
  · exact absurd (hsides "string" (by decide +kernel) (by decide +kernel)) (by decide)

end RouteAtlas.Typing
