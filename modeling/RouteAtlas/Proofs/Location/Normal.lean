/-
  RouteAtlas: the normal form of paths.

  * `IsNormal path`: a single point, or clean names with single slashes between them, behind the root or
    behind steps back; there are no other points and steps back in it, and no backslash;
  * `IsPlace rooted place`: what steps lead to has the names of a normal form, which one step keeps
    (`IsPlace.follow`) and so all steps do (`IsPlace.foldl`);
  * `Respelled path path'`: paths that are spelled in different ways, with other separators, more of them
    or single points among the names;
  * `normal_form`: every path has a normal form, which is its own, and paths that are respelled have the
    same one, and so the same route.
-/
import Mathlib.Logic.Relation
import RouteAtlas.Proofs.Location.Components

namespace RouteAtlas.Location

open RouteAtlas.Text Relation

/-! ## Normal forms -/

/-- Steps back, and nothing else. -/
def stepsBack (n : Nat) : List (List Char) :=
  List.replicate n ['.', '.']

/-- A path in normal form. -/
inductive IsNormal : List Char → Prop where
  | here : IsNormal ['.']
  /-- Behind the root there are clean names only, or none. -/
  | rooted {names : List (List Char)} : (∀ name ∈ names, IsClean name) →
      IsNormal ('/' :: joinChars ['/'] names)
  /-- A relative path may start with steps back. -/
  | relative {backs : Nat} {names : List (List Char)} : (∀ name ∈ names, IsClean name) →
      stepsBack backs ++ names ≠ [] → IsNormal (joinChars ['/'] (stepsBack backs ++ names))

/-- A place has clean names, the last one first, and steps back in front of them if it is relative. -/
def IsPlace (rooted : Bool) (place : List (List Char)) : Prop :=
  ∃ names backs, place = names ++ stepsBack backs ∧ (∀ name ∈ names, IsClean name) ∧
    (rooted = true → backs = 0)

section
variable {rooted : Bool} {place : List (List Char)} {step : List Char}

/-- A step leads from a place to a place. -/
theorem IsPlace.follow (h : IsPlace rooted place) (hslash : '/' ∉ step) (hbackslash : '\\' ∉ step) :
    IsPlace rooted (follow rooted place step) := by
  obtain ⟨names, backs, rfl, hnames, hbacks⟩ := h
  by_cases hstay : step = [] ∨ step = ['.']
  · have hfollow : Location.follow rooted (names ++ stepsBack backs) step = names ++ stepsBack backs := by
      simp [Location.follow, hstay]
    rw [hfollow]
    exact ⟨names, backs, rfl, hnames, hbacks⟩
  · obtain ⟨hempty, hpoint⟩ := not_or.1 hstay
    by_cases hback : step = ['.', '.']
    · subst hback
      cases names with
      | cons name names =>
        obtain ⟨hname, hrest⟩ := List.forall_mem_cons.1 hnames
        have hfollow : Location.follow rooted (name :: names ++ stepsBack backs) ['.', '.'] =
            names ++ stepsBack backs := by
          simp [Location.follow, hname.ne_above]
        rw [hfollow]
        exact ⟨names, backs, rfl, hrest, hbacks⟩
      | nil =>
        cases rooted with
        | true =>
          obtain rfl := hbacks rfl
          exact ⟨[], 0, rfl, hnames, fun _ => rfl⟩
        | false =>
          have hfollow : Location.follow false ([] ++ stepsBack backs) ['.', '.'] =
              [] ++ stepsBack (backs + 1) := by
            cases backs <;> simp [Location.follow, stepsBack, List.replicate_succ]
          rw [hfollow]
          exact ⟨[], backs + 1, rfl, hnames, fun h => absurd h Bool.false_ne_true⟩
    · have hfollow : Location.follow rooted (names ++ stepsBack backs) step =
          step :: names ++ stepsBack backs := by
        simp [Location.follow, hempty, hpoint, hback]
      have hstep : IsClean step := ⟨hempty, hpoint, hback, hslash, hbackslash⟩
      rw [hfollow]
      exact ⟨step :: names, backs, rfl, List.forall_mem_cons.2 ⟨hstep, hnames⟩, hbacks⟩

/-- **Steps lead from a place to a place.** -/
theorem IsPlace.foldl : ∀ {steps : List (List Char)} {place : List (List Char)}, IsPlace rooted place →
    (∀ step ∈ steps, '/' ∉ step ∧ '\\' ∉ step) → IsPlace rooted (steps.foldl (Location.follow rooted) place)
  | [], _, h, _ => h
  | _ :: _, _, h, hsteps => by
    obtain ⟨⟨hslash, hbackslash⟩, hrest⟩ := List.forall_mem_cons.1 hsteps
    exact (h.follow hslash hbackslash).foldl hrest

end

/-- The normal form of a path is one. -/
theorem isNormal_normalChars (path : List Char) : IsNormal (normalChars path) := by
  have hparts : ∀ part ∈ splitChars '/' (path.map slash), '/' ∉ part ∧ '\\' ∉ part := by
    intro part hpart
    refine ⟨not_mem_of_mem_splitFrom (by simp) hpart, fun hin => ?_⟩
    have hslashed : '\\' ∉ '/' :: path.map slash := by
      simpa using fun c _ => slash_ne_backslash c
    rw [← slashed_splitChars] at hslashed
    exact hslashed (List.mem_flatMap.2 ⟨part, hpart, List.mem_cons_of_mem _ hin⟩)
  have hstart : IsPlace (isRooted (path.map slash)) [] := ⟨[], 0, rfl, nofun, fun _ => rfl⟩
  obtain ⟨last, backs, hplace, hclean, hbacks⟩ := hstart.foldl hparts
  have hnames : names (path.map slash) = stepsBack backs ++ last.reverse := by
    unfold names
    rw [hplace, List.reverse_append, stepsBack, List.reverse_replicate]
  have hlast : ∀ name ∈ last.reverse, IsClean name := fun name h => hclean name (List.mem_reverse.1 h)
  unfold normalChars ofNames
  simp only [hnames]
  cases hrooted : isRooted (path.map slash) with
  | true =>
    obtain rfl := hbacks hrooted
    exact .rooted hlast
  | false =>
    by_cases hnone : stepsBack backs ++ last.reverse = []
    · rw [hnone]
      exact .here
    · have hsome : joinChars ['/'] (stepsBack backs ++ last.reverse) ≠ [] := by
        obtain ⟨c, rest, hjoined, -⟩ := exists_joinChars_eq_cons hnone (hnames ▸ names_tidy _)
        simp [hjoined]
      simp only [Bool.false_eq_true, if_false, List.isEmpty_iff, hsome]
      exact .relative hlast hnone

/-- Steps back lead back from a relative path. -/
theorem foldl_follow_stepsBack (backs more : Nat) :
    (stepsBack backs).foldl (follow false) (stepsBack more) = stepsBack (more + backs) := by
  induction backs generalizing more with
  | zero => rfl
  | succ backs ih =>
    have hone : follow false (stepsBack more) ['.', '.'] = stepsBack (more + 1) := by
      cases more <;> simp [follow, stepsBack, List.replicate_succ]
    have hcons : stepsBack (backs + 1) = ['.', '.'] :: stepsBack backs := List.replicate_succ
    rw [hcons, List.foldl_cons, hone, ih, Nat.add_assoc, Nat.add_comm 1]

/-- Clean names behind the root are kept. -/
theorem normalChars_rooted {names : List (List Char)} (h : ∀ name ∈ names, IsClean name) :
    normalChars ('/' :: joinChars ['/'] names) = '/' :: joinChars ['/'] names := by
  by_cases hne : names = []
  · subst hne
    rfl
  · have hslashes : (slashed names).map slash = slashed names :=
      map_slash_eq (not_mem_slashed (by decide) fun name hname => (h name hname).no_backslash)
    have hsplit : splitChars '/' (slashed names) = [] :: names :=
      splitChars_slashed (fun name hname => (h name hname).no_slash) []
    have hempty : follow true [] [] = [] := rfl
    rw [cons_joinChars hne]
    unfold normalChars ofNames Location.names
    simp only [hslashes, isRooted_slashed hne, hsplit, List.foldl_cons, hempty, foldl_follow_clean h,
      List.append_nil, List.reverse_reverse, if_true]
    exact cons_joinChars hne

/-- Steps back, and clean names behind them, are kept in a relative path. -/
theorem normalChars_relative {backs : Nat} {names : List (List Char)} (h : ∀ name ∈ names, IsClean name)
    (hne : stepsBack backs ++ names ≠ []) :
    normalChars (joinChars ['/'] (stepsBack backs ++ names)) =
      joinChars ['/'] (stepsBack backs ++ names) := by
  have hback : ∀ name ∈ stepsBack backs, name = ['.', '.'] := fun name => List.eq_of_mem_replicate
  have htidy : ∀ name ∈ stepsBack backs ++ names, (name ≠ [] ∧ '/' ∉ name) ∧ '\\' ∉ name := by
    refine List.forall_mem_append.2 ⟨fun name hname => ?_, fun name hname => ?_⟩
    · rw [hback name hname]
      decide
    · exact ⟨⟨(h name hname).ne_nil, (h name hname).no_slash⟩, (h name hname).no_backslash⟩
  have hslashes : '\\' ∉ '/' :: joinChars ['/'] (stepsBack backs ++ names) := by
    rw [cons_joinChars hne]
    exact not_mem_slashed (by decide) fun name hname => (htidy name hname).2
  obtain ⟨c, rest, hjoined, hc⟩ := exists_joinChars_eq_cons hne fun name hname => (htidy name hname).1
  have hrooted : isRooted (joinChars ['/'] (stepsBack backs ++ names)) = false := by
    simpa [hjoined, isRooted] using hc
  have hbacks : (stepsBack backs).foldl (follow false) [] = stepsBack backs := by
    have := foldl_follow_stepsBack backs 0
    rwa [Nat.zero_add] at this
  have hreverse : (stepsBack backs).reverse = stepsBack backs := List.reverse_replicate
  unfold normalChars ofNames Location.names
  rw [map_slash_eq (mt (List.mem_cons_of_mem _) hslashes)]
  simp only [hrooted, splitChars_joinChars hne fun name hname => (htidy name hname).1.2, List.foldl_append,
    hbacks, foldl_follow_clean h, List.reverse_append, List.reverse_reverse, hreverse]
  simp [hjoined]

/-- **A path in normal form is its own normal form.** -/
theorem IsNormal.normalChars_eq {path : List Char} (h : IsNormal path) : normalChars path = path := by
  cases h with
  | here => rfl
  | rooted hclean => exact normalChars_rooted hclean
  | relative hclean hne => exact normalChars_relative hclean hne

/-! ## Spellings -/

/-- A character between names. -/
def IsSeparator (c : Char) : Prop :=
  c = '/' ∨ c = '\\'

/-- One path is spelled in another way. -/
inductive Respells : List Char → List Char → Prop where
  /-- Another separator stands in the place of one. -/
  | separator {c d : Char} (front back : List Char) : IsSeparator c → IsSeparator d →
      Respells (front ++ c :: back) (front ++ d :: back)
  /-- A separator is followed by another one. -/
  | repeated {c d : Char} (front back : List Char) : IsSeparator c → IsSeparator d →
      Respells (front ++ c :: back) (front ++ c :: d :: back)
  /-- A separator stands at the end, if there is something but separators in front of it. -/
  | trailing {d : Char} {path : List Char} : (∃ c ∈ path, ¬ IsSeparator c) → IsSeparator d →
      Respells path (path ++ [d])
  /-- A point stands behind a separator, as a component of its own. -/
  | point {c d : Char} (front back : List Char) : IsSeparator c → IsSeparator d →
      Respells (front ++ c :: back) (front ++ c :: '.' :: d :: back)

/-- Two paths differ in nothing but their spelling. -/
def Respelled : List Char → List Char → Prop :=
  EqvGen Respells

theorem slash_of_isSeparator {c : Char} (h : IsSeparator c) : slash c = '/' := by
  rcases h with rfl | rfl <;> rfl

/-- A step that stays where it is may stand between two others, and does not matter. -/
theorem normal_put {step : List Char} (hstep : step = [] ∨ step = ['.']) (front back : List Char) :
    isRooted (front ++ '/' :: (step ++ '/' :: back)) = isRooted (front ++ '/' :: back) ∧
      names (front ++ '/' :: (step ++ '/' :: back)) = names (front ++ '/' :: back) := by
  have hrooted : isRooted (front ++ '/' :: (step ++ '/' :: back)) = isRooted (front ++ '/' :: back) := by
    cases front <;> rfl
  have hsplit : splitChars '/' step = [step] := by
    rcases hstep with rfl | rfl <;> rfl
  have hstay : ∀ rooted place, follow rooted place step = place := fun rooted place => by
    simp [follow, hstep]
  refine ⟨hrooted, ?_⟩
  unfold names
  rw [hrooted, splitChars_append_sep, splitChars_append_sep, splitChars_append_sep, hsplit,
    List.foldl_append, List.foldl_append, List.foldl_append, List.foldl_cons, hstay]
  rfl

/-- A separator at the end of a path that is not empty does not matter. -/
theorem normal_trail {path : List Char} (hne : path ≠ []) :
    isRooted (path ++ ['/']) = isRooted path ∧ names (path ++ ['/']) = names path := by
  have hrooted : isRooted (path ++ ['/']) = isRooted path := by
    cases path with
    | nil => exact absurd rfl hne
    | cons c path => rfl
  have hsplit : splitChars '/' (path ++ ['/']) = splitChars '/' path ++ [[]] :=
    splitChars_append_sep path []
  refine ⟨hrooted, ?_⟩
  unfold names
  rw [hrooted, hsplit, List.foldl_append]
  rfl

theorem normalChars_congr {path path' : List Char}
    (h : isRooted (path'.map slash) = isRooted (path.map slash) ∧
      names (path'.map slash) = names (path.map slash)) : normalChars path = normalChars path' := by
  unfold normalChars
  simp only [h.1, h.2]

/-- A path that is spelled in another way has the same normal form. -/
theorem Respells.normalChars_eq {path path' : List Char} (h : Respells path path') :
    normalChars path = normalChars path' := by
  refine normalChars_congr ?_
  cases h with
  | separator front back hc hd => simp [slash_of_isSeparator hc, slash_of_isSeparator hd]
  | repeated front back hc hd =>
    simpa [slash_of_isSeparator hc, slash_of_isSeparator hd] using
      normal_put (Or.inl rfl) (front.map slash) (back.map slash)
  | @trailing d path hsome hd =>
    have hne : path.map slash ≠ [] := by
      obtain ⟨c, hc, -⟩ := hsome
      simpa using List.ne_nil_of_mem hc
    simpa [slash_of_isSeparator hd] using normal_trail hne
  | point front back hc hd =>
    have hpoint : slash '.' = '.' := rfl
    simpa [slash_of_isSeparator hc, slash_of_isSeparator hd, hpoint] using
      normal_put (Or.inr rfl) (front.map slash) (back.map slash)

/-- **Paths that differ in their spelling only have the same normal form.** -/
theorem Respelled.normalChars_eq {path path' : List Char} (h : Respelled path path') :
    normalChars path = normalChars path' := by
  induction h with
  | rel _ _ h => exact h.normalChars_eq
  | refl => rfl
  | symm _ _ _ ih => exact ih.symm
  | trans _ _ _ _ _ ih ih' => exact ih.trans ih'

/-! ## Routes -/

open Recording

/-- What the route of a file is made of is its normal form. -/
theorem result_route (marker fileName : String) (strict : Bool) (file : String) (j : Journal) :
    result (route marker fileName strict file) j =
      match belowRoot? (plainMarker marker) (normalChars file.toList) with
      | some rest => .ok (routeOf fileName rest)
      | none => if strict = true then .error (.scan (.outsideRoot file marker))
        else .ok (routeOf fileName (normalChars file.toList)) := by
  unfold route
  simp only
  cases belowRoot? (plainMarker marker) (normalChars file.toList) with
  | some rest => rfl
  | none => cases strict <;> rfl

/-- **The normal form of a path.**  Every path has one: a single point, or clean names with single slashes
    between them behind the root or behind steps back; it is its own normal form.  Paths that differ in
    separators, in repeated and trailing ones and in points among their names have the same normal form;
    whatever the markers are, they have the same route, or neither has one. -/
theorem normal_form (path : String) :
    IsNormal (normal path).toList ∧ normal (normal path) = normal path ∧
    ∀ path' : String, Respelled path.toList path'.toList → normal path = normal path' ∧
      ∀ marker fileName strict j r, result (route marker fileName strict path) j = .ok r ↔
        result (route marker fileName strict path') j = .ok r := by
  refine ⟨?_, ?_, fun path' h => ⟨?_, fun marker fileName strict j r => ?_⟩⟩
  · unfold normal
    rw [String.toList_ofList]
    exact isNormal_normalChars _
  · unfold normal
    rw [String.toList_ofList, (isNormal_normalChars _).normalChars_eq]
  · unfold normal
    rw [h.normalChars_eq]
  · rw [result_route, result_route, h.normalChars_eq]
    cases belowRoot? (plainMarker marker) (normalChars path'.toList) with
    | some rest => exact Iff.rfl
    | none => cases strict <;> simp

/-- A path with the separators of another system, a point and separators at its end. -/
theorem normal_form_backslashes :
    Respelled "a/../../src/routes/x".toList "a/../../src\\routes/.\\x//".toList ∧
    normal "a/../../src/routes/x" = "../src/routes/x" ∧ IsNormal "../src/routes/x".toList ∧
    normal "a/../../src\\routes/.\\x//" = "../src/routes/x" ∧
    ∀ j, result (route "src/routes" "+server.ts" true "a/../../src\\routes/.\\x//") j = .ok "/x" := by
  have hslash : IsSeparator '/' := Or.inl rfl
  have hback : IsSeparator '\\' := Or.inr rfl
  have hrespelled : Respelled "a/../../src/routes/x".toList "a/../../src\\routes/.\\x//".toList :=
    .trans _ _ _ (.rel _ _ (.separator "a/../../src".toList "routes/x".toList hslash hback))
      (.trans _ _ _ (.rel _ _ (.point "a/../../src\\routes".toList "x".toList hslash hback))
        (.trans _ _ _ (.rel _ _ (.trailing ⟨'a', by decide, by simp [IsSeparator]⟩ hslash))
          (.rel _ _ (.repeated "a/../../src\\routes/.\\x".toList [] hslash hslash))))
  have hnormal : normal "a/../../src/routes/x" = "../src/routes/x" := by decide +kernel
  obtain ⟨hform, -, hspelled⟩ := normal_form "a/../../src/routes/x"
  obtain ⟨hsame, hroutes⟩ := hspelled _ hrespelled
  rw [hnormal] at hform hsame
  refine ⟨hrespelled, hnormal, hform, hsame.symm, fun j => (hroutes _ _ _ _ _).1 ?_⟩
  rw [result_route]
  cbv

end RouteAtlas.Location
