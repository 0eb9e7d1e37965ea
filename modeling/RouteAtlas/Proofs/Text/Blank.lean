/-
  RouteAtlas: trimming and joining.

  * `trimStartChars_append`, `trimEndChars_append`: blanks at an end of a text are dropped, and
    `trimChars_append` at both;
  * `trimEndChars_append_eq`: what stands in front of a text that is not blank stays;
  * `trimChars_eq_nil_iff`: nothing stays of a blank text only;
  * `isWord_of_isBlank`: no blank is a word character;
  * `joinChars_cons`: what is joined is the first list and, behind it, each other one with a separator;
    `forall_mem_joinChars`: its characters are theirs and those of the separators;
  * `collapse_append`, `filter_collapse`: collapsing drops blanks at the ends of a text, and keeps all
    characters that are no blanks.
-/
import Mathlib.Data.List.DropRight
import RouteAtlas.Proofs.Text.Cut
import RouteAtlas.Text.Blank
import RouteAtlas.Text.Word

namespace RouteAtlas.Text

variable {front cs back : List Char} {c : Char}

theorem trimStartChars_append (h : ∀ c ∈ front, isBlank c = true) :
    trimStartChars (front ++ cs) = trimStartChars cs :=
  List.dropWhile_append_of_pos h

theorem trimStartChars_cons (h : isBlank c = false) : trimStartChars (c :: cs) = c :: cs :=
  List.dropWhile_cons_of_neg (by simp [h])

theorem trimEndChars_append (h : ∀ c ∈ back, isBlank c = true) :
    trimEndChars (cs ++ back) = trimEndChars cs := by
  unfold trimEndChars
  rw [List.reverse_append, List.dropWhile_append_of_pos]
  exact fun c hc => h c (List.mem_reverse.1 hc)

/-- A text with another one in front keeps all of this, unless it is blank. -/
theorem trimEndChars_append_eq (front cs : List Char) : trimEndChars (front ++ cs) =
    if trimEndChars cs = [] then trimEndChars front else front ++ trimEndChars cs := by
  unfold trimEndChars
  rw [List.reverse_append, List.dropWhile_append]
  by_cases h : List.dropWhile isBlank cs.reverse = [] <;> simp [h]

theorem trimEndChars_eq_nil_iff : trimEndChars cs = [] ↔ ∀ c ∈ cs, isBlank c = true :=
  List.rdropWhile_eq_nil_iff

@[simp] theorem trimEndChars_trimEndChars (cs : List Char) :
    trimEndChars (trimEndChars cs) = trimEndChars cs :=
  List.rdropWhile_idempotent _ _

/-- A text without blanks stays as it is. -/
theorem trimEndChars_of_forall (h : ∀ c ∈ cs, isBlank c = false) : trimEndChars cs = cs :=
  List.rdropWhile_eq_self_iff.2 fun hne => by simp [h _ (List.getLast_mem hne)]

/-- A text that does not end with a blank stays as it is. -/
theorem trimEndChars_concat (h : isBlank c = false) : trimEndChars (cs ++ [c]) = cs ++ [c] :=
  List.rdropWhile_concat_neg _ _ _ (by simp [h])

/-- Blanks at both ends are dropped. -/
theorem trimChars_append (hfront : ∀ c ∈ front, isBlank c = true) (hback : ∀ c ∈ back, isBlank c = true) :
    trimChars (front ++ cs ++ back) = trimChars cs :=
  rdropWhile_dropWhile_append hfront hback

/-- Nothing stays of blanks, and of nothing else. -/
theorem trimChars_eq_nil_iff : trimChars cs = [] ↔ ∀ c ∈ cs, isBlank c = true := by
  have hfront : ∀ c ∈ cs.takeWhile isBlank, isBlank c = true := fun c hc => List.mem_takeWhile_imp hc
  refine ⟨fun h c hc => ?_, fun h => ?_⟩
  · rw [← List.takeWhile_append_dropWhile (p := isBlank) (l := cs), List.mem_append] at hc
    exact hc.elim (hfront c) (trimEndChars_eq_nil_iff.1 h c)
  · exact trimEndChars_eq_nil_iff.2 fun c hc => h c ((List.dropWhile_sublist _).subset hc)

/-! ## Blanks and words -/

/-- The code points of blanks. -/
def blankCodes : List Nat :=
  [9, 10, 11, 12, 13, 28, 29, 30, 31, 32, 0x85, 0xa0, 0x1680] ++ List.range' 0x2000 11 ++
    [0x2028, 0x2029, 0x202f, 0x205f, 0x3000]

theorem mem_blankCodes (h : isBlank c = true) : c.toNat ∈ blankCodes := by
  simp only [isBlank, Bool.or_eq_true, Bool.and_eq_true, decide_eq_true_eq, beq_iff_eq] at h
  simp only [blankCodes, List.mem_append, List.mem_cons, List.not_mem_nil, List.mem_range'_1]
  omega

/-- No blank is a word character. -/
theorem isWord_of_isBlank (h : isBlank c = true) : isWord c = false := by
  have hcodes : ∀ n ∈ blankCodes, isWord (.ofNat n) = false := by decide +kernel
  have hword := hcodes _ (mem_blankCodes h)
  rwa [Char.ofNat_toNat] at hword

/-! ## Joining -/

theorem joinChars_cons (sep first : List Char) (rest : List (List Char)) :
    joinChars sep (first :: rest) = first ++ rest.flatMap (sep ++ ·) := by
  induction rest generalizing first with
  | nil => simp [joinChars]
  | cons next rest ih =>
    rw [joinChars, ih, List.flatMap_cons]
    · simp
    · simp

/-- All characters of joined lists have a property that those of the separator have iff all of each list
    have it. -/
theorem forall_mem_joinChars {P : Char → Prop} {sep : List Char} (hsep : ∀ c ∈ sep, P c)
    (parts : List (List Char)) : (∀ c ∈ joinChars sep parts, P c) ↔ ∀ p ∈ parts, ∀ c ∈ p, P c := by
  cases parts with
  | nil => simp [joinChars]
  | cons first rest =>
    rw [joinChars_cons, List.forall_mem_append, List.forall_mem_cons, List.forall_mem_flatMap]
    simp only [List.forall_mem_append]
    exact and_congr_right fun _ => forall₂_congr fun p _ => and_iff_right hsep

/-- A filter that drops the separators sees the lists alone. -/
theorem filter_joinChars {p : Char → Bool} {sep : List Char} (hsep : sep.filter p = [])
    (parts : List (List Char)) : (joinChars sep parts).filter p = parts.flatten.filter p := by
  cases parts with
  | nil => rfl
  | cons first rest =>
    rw [joinChars_cons, List.flatten_cons, List.filter_append, List.filter_append, List.filter_flatMap,
      List.filter_flatten]
    simp [hsep, List.flatMap_def]

/-! ## Words of a text -/

/-- The words are the characters that are no blanks. -/
theorem flatten_wordsFrom : ∀ (run cs : List Char),
    (wordsFrom run cs).flatten = run.reverse ++ cs.filter fun c => !isBlank c
  | run, [] => by
    unfold wordsFrom
    split
    · rename_i hrun
      simp [List.isEmpty_iff.1 hrun]
    · simp
  | run, c :: cs => by
    unfold wordsFrom
    cases hc : isBlank c with
    | false => simp [hc, flatten_wordsFrom (c :: run) cs]
    | true =>
      simp only [if_true]
      split
      · rename_i hrun
        simp [hc, List.isEmpty_iff.1 hrun, flatten_wordsFrom [] cs]
      · simp [hc, flatten_wordsFrom [] cs]

/-- Blanks in front start no word. -/
theorem words_append : ∀ {front : List Char}, (∀ c ∈ front, isBlank c = true) →
    words (front ++ cs) = words cs
  | [], _ => rfl
  | c :: front, h => by
    obtain ⟨hc, hfront⟩ := List.forall_mem_cons.1 h
    have ih : wordsFrom [] (front ++ cs) = wordsFrom [] cs := words_append hfront
    show wordsFrom [] (c :: (front ++ cs)) = wordsFrom [] cs
    rw [wordsFrom, if_pos hc, List.isEmpty_nil, if_pos rfl, ih]

/-- Blanks behind a text end its last word and start none. -/
theorem wordsFrom_append (hback : ∀ c ∈ back, isBlank c = true) : ∀ (run cs : List Char),
    wordsFrom run (cs ++ back) = wordsFrom run cs
  | run, [] => by
    have hnone : wordsFrom [] back = [] := by
      have hwords : words (back ++ []) = words [] := words_append hback
      rwa [List.append_nil] at hwords
    match back, hback, hnone with
    | [], _, _ => rfl
    | c :: back, hback, hnone =>
      have hc := hback c (List.mem_cons_self ..)
      rw [wordsFrom, if_pos hc, List.isEmpty_nil, if_pos rfl] at hnone
      simp only [List.nil_append, wordsFrom, hc, hnone, if_true]
  | run, c :: cs => by
    rw [List.cons_append, wordsFrom, wordsFrom]
    rw [wordsFrom_append hback [] cs, wordsFrom_append hback (c :: run) cs]

/-- Blanks at the ends of a text do not matter for its words. -/
theorem collapse_append {front s back : String} (hfront : ∀ c ∈ front.toList, isBlank c = true)
    (hback : ∀ c ∈ back.toList, isBlank c = true) : collapse (front ++ s ++ back) = collapse s := by
  unfold collapse
  rw [String.toList_append, String.toList_append, List.append_assoc, words_append hfront]
  exact congrArg (fun ws => String.ofList (joinChars [' '] ws)) (wordsFrom_append hback [] s.toList)

/-- Collapsing keeps the characters that are no blanks. -/
theorem filter_collapse (s : String) :
    (collapse s).toList.filter (fun c => !isBlank c) = s.toList.filter fun c => !isBlank c := by
  have hsep : [' '].filter (fun c => !isBlank c) = [] := by decide
  unfold collapse words
  rw [String.toList_ofList, filter_joinChars hsep, flatten_wordsFrom]
  simp

end RouteAtlas.Text
