/-
  RouteAtlas: unions of types.

  * `distinct` keeps each text once: `mem_distinct`, `nodup_distinct`, `pairwise_distinct` say which and in
    which order, and `distinct_append` what is kept of several lists behind each other;
  * `unionMembers ts` are the members of a union of texts, `union_eq` joins them, and `union_pair` is the
    union of two texts;
  * `breadth ts` is how long texts are with bars between them; fewer texts are less broad.
-/
import Mathlib.Data.List.Nodup
import RouteAtlas.Proofs.Text.Cut
import RouteAtlas.Typing.TypeText

namespace RouteAtlas.Typing

open RouteAtlas.Text

variable {s t : String} {ts : List String}

/-! ## Distinct texts -/

theorem mem_addDistinct {x t : String} {ts : List String} :
    x ∈ addDistinct ts t ↔ x ∈ ts ∨ x = t ∧ x ≠ "" := by
  unfold addDistinct
  split
  · rename_i h
    have h : t = "" ∨ t ∈ ts := by simpa using h
    refine ⟨Or.inl, ?_⟩
    rintro (hx | ⟨rfl, hne⟩)
    · exact hx
    · exact h.resolve_left hne
  · rename_i h
    have h : t ≠ "" ∧ t ∉ ts := by simpa using h
    rw [List.mem_append, List.mem_singleton]
    refine or_congr_right ⟨?_, And.left⟩
    rintro rfl
    exact ⟨rfl, h.1⟩

theorem mem_foldl_addDistinct {x : String} : ∀ {ts acc : List String},
    x ∈ ts.foldl addDistinct acc ↔ x ∈ acc ∨ x ∈ ts ∧ x ≠ ""
  | [], acc => by simp
  | t :: ts, acc => by
    rw [List.foldl_cons, mem_foldl_addDistinct, mem_addDistinct, List.mem_cons, or_and_right,
      or_assoc]

theorem mem_distinct {x : String} {ts : List String} : x ∈ distinct ts ↔ x ∈ ts ∧ x ≠ "" := by
  unfold distinct
  rw [mem_foldl_addDistinct]
  simp

theorem sublist_addDistinct {acc ts : List String} (h : acc.Sublist ts) (t : String) :
    (addDistinct acc t).Sublist (ts ++ [t]) := by
  unfold addDistinct
  split
  · exact h.trans (List.sublist_append_left ..)
  · exact h.append_right [t]

theorem foldl_addDistinct_sublist : ∀ {acc before : List String} (ts : List String), acc.Sublist before →
    (ts.foldl addDistinct acc).Sublist (before ++ ts)
  | _, before, [], h => by simpa using h
  | _, before, t :: ts, h => by
    have := foldl_addDistinct_sublist ts (sublist_addDistinct h t)
    rwa [List.append_assoc] at this

theorem distinct_sublist (ts : List String) : (distinct ts).Sublist ts :=
  foldl_addDistinct_sublist ts (.refl [])

theorem prefix_foldl_addDistinct : ∀ (ts acc : List String), acc <+: ts.foldl addDistinct acc
  | [], acc => List.prefix_rfl
  | t :: ts, acc => by
    have hstep : acc <+: addDistinct acc t := by
      unfold addDistinct
      split
      · exact List.prefix_rfl
      · exact List.prefix_append ..
    exact hstep.trans (prefix_foldl_addDistinct ts _)

/-- What is added to a list of texts: the distinct ones that it does not have. -/
theorem foldl_addDistinct (ts : List String) : ∀ acc : List String,
    ts.foldl addDistinct acc = acc ++ (distinct ts).filter fun t => t ∉ acc := by
  induction ts with
  | nil => simp [distinct]
  | cons t ts ih =>
    intro acc
    have hfirst : distinct (t :: ts) = addDistinct [] t ++ (distinct ts).filter fun u => u ∉ addDistinct [] t :=
      ih (addDistinct [] t)
    rw [List.foldl_cons, ih, hfirst, List.filter_append, List.filter_filter, ← List.append_assoc]
    unfold addDistinct
    by_cases hempty : t = ""
    · simp [hempty]
    · by_cases hmem : t ∈ acc
      · have hne : ∀ u, u ∉ acc → u ≠ t := fun u hu heq => hu (heq ▸ hmem)
        have hsame : ∀ u ∈ distinct ts, decide (u ∉ acc) = decide (u ∉ acc ∧ u ≠ t) := fun u _ =>
          decide_eq_decide.2 (and_iff_left_of_imp (hne u)).symm
        simpa [hempty, hmem] using List.filter_congr hsame
      · simp [hempty, hmem]

/-- Of two lists the distinct texts of the first one are kept, and those of the second one that are not
    among them. -/
theorem distinct_append (as bs : List String) :
    distinct (as ++ bs) = distinct as ++ (distinct bs).filter fun t => t ∉ distinct as := by
  rw [distinct, List.foldl_append, foldl_addDistinct bs]
  rfl

/-- Texts that are there already add nothing. -/
theorem distinct_append_of_subset {as bs : List String} (h : ∀ t ∈ distinct bs, t ∈ distinct as) :
    distinct (as ++ bs) = distinct as := by
  rw [distinct_append, List.filter_eq_nil_iff.2 (by simpa using h), List.append_nil]

theorem nodup_foldl_addDistinct : ∀ {acc : List String} (ts : List String), acc.Nodup →
    (ts.foldl addDistinct acc).Nodup
  | _, [], h => h
  | acc, t :: ts, h => by
    refine nodup_foldl_addDistinct ts ?_
    unfold addDistinct
    split
    · exact h
    · rename_i hnew
      have hnew : t ≠ "" ∧ t ∉ acc := by simpa using hnew
      exact List.nodup_append_comm.1 (List.nodup_cons.2 ⟨hnew.2, h⟩)

theorem nodup_distinct (ts : List String) : (distinct ts).Nodup :=
  nodup_foldl_addDistinct ts List.nodup_nil

theorem distinct_of_nodup : ∀ {ts : List String}, ts.Nodup → (∀ t ∈ ts, t ≠ "") → distinct ts = ts
  | [], _, _ => rfl
  | t :: ts, h, hwords => by
    obtain ⟨ht, hts⟩ := List.nodup_cons.1 h
    obtain ⟨hword, hwords⟩ := List.forall_mem_cons.1 hwords
    have hfirst : distinct [t] = [t] := by simp [distinct, addDistinct, hword]
    rw [← List.singleton_append, distinct_append, hfirst, distinct_of_nodup hts hwords,
      List.filter_eq_self.2]
    intro u hu
    have hne : u ≠ t := fun heq => ht (heq ▸ hu)
    simpa using hne

/-- What is distinct stands in the order in which it comes first. -/
theorem pairwise_distinct (ts : List String) :
    (distinct ts).Pairwise fun t u => ∃ front back, ts = front ++ t :: back ∧ u ∉ t :: front := by
  -- From the end: a text that is added last is new, and stands behind all that are there.
  induction ts using List.reverseRecOn with
  | nil => exact .nil
  | append_singleton ts v ih =>
    have hbefore : (distinct ts).Pairwise fun t u =>
        ∃ front back, ts ++ [v] = front ++ t :: back ∧ u ∉ t :: front := by
      refine ih.imp ?_
      rintro t u ⟨front, back, rfl, hu⟩
      exact ⟨front, back ++ [v], by simp, hu⟩
    have hconcat : distinct (ts ++ [v]) = addDistinct (distinct ts) v := by
      rw [distinct, List.foldl_append]
      rfl
    rw [hconcat]
    unfold addDistinct
    split
    · exact hbefore
    · rename_i hnew
      have hnew : v ≠ "" ∧ v ∉ distinct ts := by simpa using hnew
      have hv : v ∉ ts := fun hmem => hnew.2 (mem_distinct.2 ⟨hmem, hnew.1⟩)
      refine List.pairwise_append.2 ⟨hbefore, List.pairwise_singleton .., fun t ht u hu => ?_⟩
      obtain rfl := List.mem_singleton.1 hu
      obtain ⟨front, back, rfl⟩ := List.append_of_mem (mem_distinct.1 ht).1
      refine ⟨front, back ++ [u], by simp, fun hmem => hv ?_⟩
      rcases List.mem_cons.1 hmem with rfl | hmem
      · simp
      · simp [hmem]

/-- The same texts in another order have the same distinct ones in another order. -/
theorem perm_distinct {as bs : List String} (h : ∀ t, t ∈ as ↔ t ∈ bs) :
    (distinct as).Perm (distinct bs) := by
  refine (List.perm_ext_iff_of_nodup (nodup_distinct as) (nodup_distinct bs)).2 fun t => ?_
  rw [mem_distinct, mem_distinct, h]

/-! ## Members -/

/-- The union of a single type is the type, unless its text is empty. -/
theorem union_single {t : String} (h : t ≠ "") : union [t] = t := by
  have hempty : t.isEmpty = false := by simpa using h
  have hdistinct : distinct [t] = [t] := by simp [distinct, addDistinct, hempty]
  have hjoined : joinWith " | " [t] = t := by simp [joinWith, joinChars]
  unfold union
  simp only [hdistinct]
  split
  · rename_i hany
    simpa [eq_comm] using hany
  · exact hjoined

/-- Of two types or more one is left without another. -/
theorem erase_ne_nil {ts : List String} (h : 1 < ts.length) (t : String) : ts.erase t ≠ [] := by
  intro hnil
  have hlength : ts.length - 1 ≤ (ts.erase t).length := by
    rw [List.length_erase]
    split <;> omega
  rw [hnil, List.length_nil] at hlength
  omega

/-- The members of a union of texts. -/
def unionMembers (ts : List String) : List String :=
  if distinct ts = [] ∨ any ∈ distinct ts then [any]
  else if 1 < (distinct ts).length then (distinct ts).erase never
  else distinct ts

/-- A union is its members with bars between them. -/
theorem union_eq (ts : List String) : union ts = joinWith " | " (unionMembers ts) := by
  unfold union unionMembers
  simp only [Bool.or_eq_true, List.isEmpty_iff, List.contains_iff_mem, gt_iff_lt]
  split
  · rw [joinWith_singleton]
  · split <;> rfl

theorem unionMembers_ne_nil (ts : List String) : unionMembers ts ≠ [] := by
  unfold unionMembers
  split
  · exact List.cons_ne_nil _ _
  · rename_i hplain
    split
    · rename_i hlong
      exact erase_ne_nil hlong never
    · exact fun hnil => hplain (.inl hnil)

theorem mem_unionMembers {x : String} {ts : List String} (h : x ∈ unionMembers ts) : x = any ∨ x ∈ ts := by
  unfold unionMembers at h
  split at h
  · exact .inl (List.mem_singleton.1 h)
  · split at h
    · exact .inr (mem_distinct.1 (List.mem_of_mem_erase h)).1
    · exact .inr (mem_distinct.1 h).1

/-- A union has some of its texts as members. -/
theorem unionMembers_sublist {ts : List String} (hne : ts ≠ []) (hwords : ∀ t ∈ ts, t ≠ "") :
    (unionMembers ts).Sublist ts := by
  obtain ⟨t, ht⟩ := List.exists_mem_of_ne_nil ts hne
  have hdistinct : distinct ts ≠ [] := List.ne_nil_of_mem (mem_distinct.2 ⟨ht, hwords t ht⟩)
  unfold unionMembers
  split
  · rename_i hany
    exact List.singleton_sublist.2 (mem_distinct.1 (hany.resolve_left hdistinct)).1
  · split
    · exact List.erase_sublist.trans (distinct_sublist ts)
    · exact distinct_sublist ts

/-- A union starts with the first of its texts, unless this adds nothing to it or another one absorbs it. -/
theorem union_cons (ts : List String) (ht : t ≠ "") :
    union (t :: ts) = any ∨ t = never ∨ ∃ more, union (t :: ts) = t ++ more := by
  obtain ⟨rest, hrest⟩ : ∃ rest, distinct (t :: ts) = t :: rest := by
    have hfirst : addDistinct [] t = [t] := by simp [addDistinct, ht]
    obtain ⟨rest, hrest⟩ := prefix_foldl_addDistinct ts [t]
    exact ⟨rest, by rw [distinct, List.foldl_cons, hfirst, ← hrest]; rfl⟩
  rw [union_eq, unionMembers, hrest]
  split
  · exact .inl (joinWith_singleton ..)
  · refine .inr (or_iff_not_imp_left.2 fun hnever => ?_)
    split
    · rw [List.erase_cons_tail (by simpa using hnever)]
      exact exists_joinWith_cons " | " t _
    · exact exists_joinWith_cons " | " t _

/-- The union of two types. -/
theorem union_pair (hs : s ≠ "") (ht : t ≠ "") : union [s, t] =
    if s = any ∨ t = any then any
    else if s = t then s
    else if s = never then t
    else if t = never then s
    else s ++ " | " ++ t := by
  by_cases hst : s = t
  · have hdistinct : distinct [s, t] = distinct [s] := by simp [distinct, addDistinct, hst, ht]
    have hunion : union [s, t] = union [s] := by simp only [union, hdistinct]
    rw [hunion, union_single hs, if_pos hst]
    split
    · rename_i hany
      exact hany.elim id fun h => hst.trans h
    · rfl
  · have hdistinct : distinct [s, t] = [s, t] := by simp [distinct, addDistinct, hs, ht, Ne.symm hst]
    rw [union_eq, unionMembers, hdistinct, if_neg hst]
    have hmem : ([s, t] = [] ∨ any ∈ [s, t]) ↔ s = any ∨ t = any := by
      simp [@eq_comm _ any]
    by_cases hany : s = any ∨ t = any
    · rw [if_pos hany, if_pos (hmem.2 hany), joinWith_singleton]
    · have htwo : 1 < [s, t].length := Nat.lt_succ_self 1
      rw [if_neg hany, if_neg (fun h => hany (hmem.1 h)), if_pos htwo]
      by_cases hs' : s = never
      · rw [if_pos hs', hs', List.erase_cons_head, joinWith_singleton]
      · rw [if_neg hs', List.erase_cons_tail (by simpa using hs')]
        by_cases ht' : t = never
        · rw [if_pos ht', ht', List.erase_cons_head, joinWith_singleton]
        · rw [if_neg ht', List.erase_of_not_mem (by simpa using Ne.symm ht'), joinWith_cons_cons,
            joinWith_singleton]

/-! ## The breadth of a union -/

/-- How long texts are with bars between them, and one more behind them. -/
def breadth : List String → Nat
  | [] => 0
  | t :: ts => t.length + 3 + breadth ts

@[simp] theorem breadth_cons (t : String) (ts : List String) :
    breadth (t :: ts) = t.length + 3 + breadth ts := rfl

theorem length_joinWith_bars : ∀ {ts : List String}, ts ≠ [] → (joinWith " | " ts).length + 3 = breadth ts
  | [t], _ => by simp [breadth]
  | t :: next :: ts, _ => by
    have hbar : " | ".length = 3 := rfl
    have ih := length_joinWith_bars (List.cons_ne_nil next ts)
    rw [joinWith_cons_cons, String.length_append, String.length_append, breadth_cons, hbar]
    omega

/-- Fewer texts are less broad. -/
theorem eq_or_breadth_lt {l ts : List String} (h : l.Sublist ts) :
    l = ts ∨ breadth l < breadth ts := by
  induction h with
  | slnil => exact .inl rfl
  | cons t _ ih =>
    refine .inr ?_
    rw [breadth_cons]
    rcases ih with rfl | ih <;> omega
  | cons_cons t _ ih =>
    rcases ih with rfl | ih
    · exact .inl rfl
    · rw [breadth_cons, breadth_cons]
      exact .inr (by omega)

end RouteAtlas.Typing
