/-
  RouteAtlas: laws of cutting and joining.

  * `dropStart?_eq_some_iff`, `dropEnd?_eq_some_iff`: what is taken off an end and what is left make the
    text; `endsWith_iff` says when there is something to take off the end;
  * `stripChars_append`, `stripChars_eq_self_iff`: members of a set at the ends of a text are dropped, and
    nothing if none stands there; `exists_stripChars`: what is dropped is of the set;
  * `joinWith_append`: two lists joined behind each other have the separator between them;
  * `splitOn_joinWith`: cutting undoes joining, where no part contains the separator.
-/
import Mathlib.Data.List.DropRight
import RouteAtlas.Text.Cut

namespace RouteAtlas.Text

/-! ## Ends -/

theorem dropStartChars?_eq_some_iff {start cs rest : List Char} :
    dropStartChars? start cs = some rest ↔ cs = start ++ rest := by
  induction start generalizing cs with
  | nil => simp [dropStartChars?]
  | cons p ps ih =>
    cases cs with
    | nil => simp [dropStartChars?]
    | cons c cs =>
      rw [dropStartChars?]
      by_cases hp : p = c
      · subst hp; simp [ih]
      · simp [hp, Ne.symm hp]

theorem dropEndChars?_eq_some_iff {stop cs rest : List Char} :
    dropEndChars? stop cs = some rest ↔ cs = rest ++ stop := by
  unfold dropEndChars?
  rw [Option.map_eq_some_iff]
  constructor
  · rintro ⟨back, hb, rfl⟩
    have h := congrArg List.reverse (dropStartChars?_eq_some_iff.1 hb)
    simpa using h
  · rintro rfl
    exact ⟨rest.reverse, dropStartChars?_eq_some_iff.2 (by simp), by simp⟩

theorem dropStart?_eq_some_iff {start s rest : String} :
    dropStart? start s = some rest ↔ s = start ++ rest := by
  unfold dropStart?
  rw [Option.map_eq_some_iff]
  constructor
  · rintro ⟨cs, h, rfl⟩
    apply String.toList_inj.1
    rw [dropStartChars?_eq_some_iff.1 h, String.toList_append, String.toList_ofList]
  · rintro rfl
    exact ⟨rest.toList, dropStartChars?_eq_some_iff.2 String.toList_append, String.ofList_toList⟩

theorem dropEnd?_eq_some_iff {stop s rest : String} :
    dropEnd? stop s = some rest ↔ s = rest ++ stop := by
  unfold dropEnd?
  rw [Option.map_eq_some_iff]
  constructor
  · rintro ⟨cs, h, rfl⟩
    apply String.toList_inj.1
    rw [dropEndChars?_eq_some_iff.1 h, String.toList_append, String.toList_ofList]
  · rintro rfl
    exact ⟨rest.toList, dropEndChars?_eq_some_iff.2 String.toList_append, String.ofList_toList⟩

theorem endsWith_iff {stop s : String} : endsWith stop s = true ↔ ∃ rest, s = rest ++ stop := by
  have h : endsWith stop s = (dropEnd? stop s).isSome := by
    unfold endsWith dropEnd?
    rw [Option.isSome_map]
  rw [h, Option.isSome_iff_exists]
  exact exists_congr fun rest => dropEnd?_eq_some_iff

/-- What ends a text ends every text that the text ends. -/
theorem endsWith_append {stop s : String} (h : endsWith stop s = true) (front : String) :
    endsWith stop (front ++ s) = true := by
  obtain ⟨rest, rfl⟩ := endsWith_iff.1 h
  exact endsWith_iff.2 ⟨front ++ rest, String.append_assoc.symm⟩

/-! ## Stripping -/

section
variable {α : Type} {p : α → Bool} {front cs back : List α}

/-- What is dropped from both ends of a list does not matter. -/
theorem rdropWhile_dropWhile_append (hfront : ∀ a ∈ front, p a = true) (hback : ∀ a ∈ back, p a = true) :
    ((front ++ cs ++ back).dropWhile p).rdropWhile p = (cs.dropWhile p).rdropWhile p := by
  have hend : ∀ as : List α, (as ++ back).rdropWhile p = as.rdropWhile p := fun as => by
    unfold List.rdropWhile
    rw [List.reverse_append, List.dropWhile_append_of_pos]
    exact fun a ha => hback a (List.mem_reverse.1 ha)
  rw [List.append_assoc, List.dropWhile_append_of_pos hfront, List.dropWhile_append]
  split
  · rename_i hnone
    rw [List.isEmpty_iff.1 hnone, List.dropWhile_eq_nil_iff.2 hback]
  · exact hend _

theorem dropWhile_eq_self_iff : cs.dropWhile p = cs ↔ ∀ a ∈ cs.head?, p a = false := by
  cases cs with
  | nil => simp
  | cons a cs =>
    rw [List.dropWhile_cons]
    cases hp : p a with
    | false => simp [hp]
    | true =>
      have hshort := (List.dropWhile_sublist (l := cs) p).length_le
      refine iff_of_false (fun h => ?_) (by simp [hp])
      rw [if_pos rfl] at h
      rw [h, List.length_cons] at hshort
      omega

theorem rdropWhile_eq_self_iff : cs.rdropWhile p = cs ↔ ∀ a ∈ cs.getLast?, p a = false := by
  unfold List.rdropWhile
  rw [List.reverse_eq_iff, dropWhile_eq_self_iff, List.head?_reverse]

/-- Nothing is dropped from either end exactly if nothing is dropped from both. -/
theorem rdropWhile_dropWhile_eq_self_iff : (cs.dropWhile p).rdropWhile p = cs ↔
    (∀ a ∈ cs.head?, p a = false) ∧ ∀ a ∈ cs.getLast?, p a = false := by
  rw [← dropWhile_eq_self_iff, ← rdropWhile_eq_self_iff]
  constructor
  · intro h
    have hlength : cs.length ≤ (cs.dropWhile p).length := by
      have := (List.rdropWhile_prefix p (cs.dropWhile p)).length_le
      rwa [h] at this
    have hstart := (List.dropWhile_suffix p).eq_of_length_le hlength
    rw [hstart] at h
    exact ⟨hstart, h⟩
  · rintro ⟨hstart, hend⟩
    rw [hstart, hend]

end

section
variable {set front cs back : List Char}

theorem stripChars_append (hfront : ∀ c ∈ front, c ∈ set) (hback : ∀ c ∈ back, c ∈ set) :
    stripChars set (front ++ cs ++ back) = stripChars set cs :=
  rdropWhile_dropWhile_append (fun c hc => List.contains_iff_mem.2 (hfront c hc))
    fun c hc => List.contains_iff_mem.2 (hback c hc)

/-- Nothing is dropped of a text exactly if no member of the set stands at an end of it. -/
theorem stripChars_eq_self_iff :
    stripChars set cs = cs ↔ (∀ c ∈ cs.head?, c ∉ set) ∧ ∀ c ∈ cs.getLast?, c ∉ set := by
  unfold stripChars
  have := @rdropWhile_dropWhile_eq_self_iff _ set.contains cs
  simpa [List.rdropWhile] using this

/-- What is dropped of a text is of the set. -/
theorem exists_stripChars (set cs : List Char) :
    ∃ front back, cs = front ++ stripChars set cs ++ back ∧ ∀ c ∈ front ++ back, c ∈ set := by
  refine ⟨cs.takeWhile set.contains, (cs.dropWhile set.contains).rtakeWhile set.contains, ?_, ?_⟩
  · have hend := List.rdropWhile_append_rtakeWhile (p := set.contains) (l := cs.dropWhile set.contains)
    have hstart := List.takeWhile_append_dropWhile (p := set.contains) (l := cs)
    show cs = _ ++ (cs.dropWhile set.contains).rdropWhile set.contains ++ _
    rw [List.append_assoc, hend, hstart]
  · intro c hc
    rcases List.mem_append.1 hc with hc | hc
    · exact List.contains_iff_mem.1 (List.mem_takeWhile_imp hc)
    · exact List.contains_iff_mem.1 (List.mem_rtakeWhile_imp hc)

end

@[simp] theorem joinWith_nil (sep : String) : joinWith sep [] = "" := rfl

@[simp] theorem joinWith_singleton (sep part : String) : joinWith sep [part] = part := by
  simp [joinWith, joinChars]

theorem joinWith_cons_cons (sep part next : String) (parts : List String) :
    joinWith sep (part :: next :: parts) = part ++ sep ++ joinWith sep (next :: parts) := by
  apply String.toList_inj.1
  simp [joinWith, joinChars]

theorem exists_joinWith_cons (sep t : String) : ∀ ts : List String, ∃ more, joinWith sep (t :: ts) = t ++ more
  | [] => ⟨"", by simp⟩
  | next :: ts => ⟨sep ++ joinWith sep (next :: ts), by rw [joinWith_cons_cons, String.append_assoc]⟩

theorem joinWith_append (sep : String) {ts : List String} (hts : ts ≠ []) : ∀ {front : List String},
    front ≠ [] → joinWith sep (front ++ ts) = joinWith sep front ++ sep ++ joinWith sep ts
  | [t], _ => by
    obtain ⟨next, ts, rfl⟩ := List.exists_cons_of_ne_nil hts
    rw [List.singleton_append, joinWith_cons_cons, joinWith_singleton]
  | t :: next :: front, _ => by
    rw [List.cons_append, List.cons_append, joinWith_cons_cons, ← List.cons_append,
      joinWith_append sep hts (List.cons_ne_nil next front), joinWith_cons_cons]
    simp only [String.append_assoc]

/-- What ends the last of several texts ends them with a separator between them. -/
theorem endsWith_joinWith {stop sep last : String} (h : endsWith stop last = true) :
    ∀ above : List String, endsWith stop (joinWith sep (above ++ [last])) = true
  | [] => by simpa using h
  | [a] => by
    rw [List.singleton_append, joinWith_cons_cons, joinWith_singleton]
    exact endsWith_append h _
  | a :: b :: above => by
    rw [List.cons_append, List.cons_append, joinWith_cons_cons]
    exact endsWith_append (endsWith_joinWith h (b :: above)) _

/-! ## Parts -/

section
variable {sep : Char}

theorem splitFrom_last {cs : List Char} (h : sep ∉ cs) (part : List Char) :
    splitFrom sep part cs = [part.reverse ++ cs] := by
  induction cs generalizing part with
  | nil => simp [splitFrom]
  | cons c cs ih =>
    obtain ⟨hc, hcs⟩ := not_or.1 (mt List.mem_cons.2 h)
    rw [splitFrom, if_neg (by simpa using Ne.symm hc), ih hcs]
    simp

theorem splitFrom_sep {cs : List Char} (h : sep ∉ cs) (part rest : List Char) :
    splitFrom sep part (cs ++ sep :: rest) = (part.reverse ++ cs) :: splitFrom sep [] rest := by
  induction cs generalizing part with
  | nil => simp [splitFrom]
  | cons c cs ih =>
    obtain ⟨hc, hcs⟩ := not_or.1 (mt List.mem_cons.2 h)
    rw [List.cons_append, splitFrom, if_neg (by simpa using Ne.symm hc), ih hcs]
    simp

theorem splitFrom_append_sep (part front rest : List Char) :
    splitFrom sep part (front ++ sep :: rest) = splitFrom sep part front ++ splitFrom sep [] rest := by
  induction front generalizing part with
  | nil => simp [splitFrom]
  | cons c front ih =>
    rw [List.cons_append, splitFrom, splitFrom]
    split
    · rw [ih, List.cons_append]
    · exact ih _

/-- A separator cuts a text into the parts before it and those behind it. -/
theorem splitChars_append_sep (front rest : List Char) :
    splitChars sep (front ++ sep :: rest) = splitChars sep front ++ splitChars sep rest :=
  splitFrom_append_sep [] front rest

/-- A separator in front of a text has an empty part before it. -/
theorem splitChars_sep_cons (rest : List Char) : splitChars sep (sep :: rest) = [] :: splitChars sep rest :=
  splitChars_append_sep [] rest

theorem splitOn_of_sep_cons {s : String} {rest : List Char} (h : s.toList = sep :: rest) :
    splitOn sep s = "" :: (splitChars sep rest).map String.ofList := by
  rw [splitOn, h, splitChars_sep_cons, List.map_cons]

/-- Cutting undoes joining. -/
theorem splitChars_joinChars : ∀ {parts : List (List Char)}, parts ≠ [] → (∀ p ∈ parts, sep ∉ p) →
    splitChars sep (joinChars [sep] parts) = parts
  | [p], _, h => by
    unfold joinChars splitChars
    rw [splitFrom_last (h p (List.mem_cons_self ..))]
    rfl
  | p :: q :: parts, _, h => by
    have ih := splitChars_joinChars (List.cons_ne_nil q parts) fun r hr =>
      h r (List.mem_cons_of_mem _ hr)
    unfold splitChars at ih ⊢
    rw [joinChars, List.append_assoc, List.singleton_append,
      splitFrom_sep (h p (List.mem_cons_self ..)), ih]
    · rfl
    · simp

theorem splitOn_joinWith {parts : List String} (hne : parts ≠ [])
    (h : ∀ p ∈ parts, sep ∉ p.toList) : splitOn sep (joinWith (.singleton sep) parts) = parts := by
  unfold splitOn joinWith
  rw [String.toList_ofList, String.toList_singleton, splitChars_joinChars]
  · simp
  · simpa using hne
  · simpa using h

theorem not_mem_of_mem_splitFrom {cs p : List Char} : ∀ {part : List Char}, sep ∉ part →
    p ∈ splitFrom sep part cs → sep ∉ p := by
  induction cs with
  | nil =>
    intro part hpart hp
    rw [splitFrom, List.mem_singleton] at hp
    simpa [hp] using hpart
  | cons c cs ih =>
    intro part hpart hp
    rw [splitFrom] at hp
    split at hp
    · rcases List.mem_cons.1 hp with rfl | hp
      · simpa using hpart
      · exact ih (by simp) hp
    · rename_i hc
      have hpart' : sep ∉ c :: part := by
        simpa [hpart] using Ne.symm (by simpa using hc)
      exact ih hpart' hp

/-- No part contains the separator. -/
theorem not_mem_of_mem_splitOn {s p : String} (h : p ∈ splitOn sep s) : sep ∉ p.toList := by
  unfold splitOn at h
  obtain ⟨cs, hcs, rfl⟩ := List.mem_map.1 h
  rw [String.toList_ofList]
  exact not_mem_of_mem_splitFrom (by simp) hcs

end

end RouteAtlas.Text
