/-
  RouteAtlas: the routes root below a place.

  What stands in front of the routes root in the path of a file takes no part in its route.

  * `readNames below` are the names of a relative place as routes are read off them: a backslash separates
    too, and steps back are taken; `HasRoot marker below`: the names of the routes marker are among them;
  * `foldl_follow_back`: steps lead to the same names wherever they start, as far as they do not lead back
    behind their start;
  * `belowRoot?_below`: what follows the routes root in the path of a file below a place does not depend
    on the place, and so its route does not (`exists_route_below`).
-/
import RouteAtlas.Proofs.Location.Shape

namespace RouteAtlas.Location

open RouteAtlas.Text

/-- The names of a relative place as routes are read off them. -/
def readNames (below : Place) : List (List Char) :=
  names (('.' :: slashed (below.map String.toList)).map slash)

/-- The names of the routes marker stand one behind the other in a relative place, as routes are read off
    it.  No step back is one of them. -/
structure HasRoot (marker : String) (below : Place) : Prop where
  run : (markerNames marker).map String.toList <:+: readNames below
  ne_above : ".." ∉ markerNames marker

/-! ## Steps from different places -/

/-- A step from places that agree on their last names, where one has nothing but steps back in front of
    them. -/
theorem follow_back {last : List (List Char)} (hlast : ['.', '.'] ∉ last) (backs : Nat)
    (step : List Char) :
    ∃ last' backs', ['.', '.'] ∉ last' ∧
      follow false (last ++ List.replicate backs ['.', '.']) step =
        last' ++ List.replicate backs' ['.', '.'] ∧
      ∀ front, ∃ front', follow true (last ++ front) step = last' ++ front' := by
  by_cases hstay : step = [] ∨ step = ['.']
  · have hfollow : ∀ rooted place, follow rooted place step = place := fun rooted place => by
      simp [follow, hstay]
    exact ⟨last, backs, hlast, hfollow _ _, fun front => ⟨front, hfollow _ _⟩⟩
  · by_cases hback : step = ['.', '.']
    · subst hback
      cases last with
      | nil =>
        have hone : follow false (List.replicate backs ['.', '.']) ['.', '.'] =
            List.replicate (backs + 1) ['.', '.'] := by
          cases backs <;> simp [follow, List.replicate_succ]
        exact ⟨[], backs + 1, hlast, hone, fun front => ⟨follow true front ['.', '.'], rfl⟩⟩
      | cons name last =>
        obtain ⟨hname, hrest⟩ := not_or.1 (mt List.mem_cons.2 hlast)
        have hfollow : ∀ rooted more, follow rooted (name :: last ++ more) ['.', '.'] = last ++ more :=
          fun rooted more => by simp [follow, Ne.symm hname]
        exact ⟨last, backs, hrest, hfollow _ _, fun front => ⟨front, hfollow _ _⟩⟩
    · obtain ⟨hempty, hpoint⟩ := not_or.1 hstay
      have hfollow : ∀ rooted place, follow rooted place step = step :: place := fun rooted place => by
        simp [follow, hempty, hpoint, hback]
      have hmore : ['.', '.'] ∉ step :: last :=
        mt List.mem_cons.1 (not_or.2 ⟨Ne.symm hback, hlast⟩)
      exact ⟨step :: last, backs, hmore, hfollow _ _, fun front => ⟨front, hfollow _ _⟩⟩

/-- **Steps lead to the same names wherever they start**, but for what steps back led to. -/
theorem foldl_follow_back : ∀ (steps : List (List Char)) {last : List (List Char)},
    ['.', '.'] ∉ last → ∀ backs : Nat,
      ∃ last' backs', ['.', '.'] ∉ last' ∧
        steps.foldl (follow false) (last ++ List.replicate backs ['.', '.']) =
          last' ++ List.replicate backs' ['.', '.'] ∧
        ∀ front, ∃ front', steps.foldl (follow true) (last ++ front) = last' ++ front'
  | [], last, hlast, backs => ⟨last, backs, hlast, rfl, fun front => ⟨front, rfl⟩⟩
  | step :: steps, last, hlast, backs => by
    obtain ⟨last₁, backs₁, hlast₁, hfalse, htrue⟩ := follow_back hlast backs step
    obtain ⟨last', backs', hlast', hfalse', htrue'⟩ := foldl_follow_back steps hlast₁ backs₁
    refine ⟨last', backs', hlast', by rw [List.foldl_cons, hfalse, hfalse'], fun front => ?_⟩
    obtain ⟨front₁, hfront⟩ := htrue front
    obtain ⟨front', hfront'⟩ := htrue' front₁
    exact ⟨front', by rw [List.foldl_cons, hfront, hfront']⟩

/-! ## Paths below a place -/

theorem ne_nil_of_hasRoot {marker : String} {below : Place} (h : HasRoot marker below) : below ≠ [] := by
  rintro rfl
  have hnone : readNames [] = [] := by cbv
  have hrun := h.run
  rw [hnone, List.infix_nil, List.map_eq_nil_iff] at hrun
  exact markerNames_ne_nil marker hrun

/-- The names of a path to what stands below a place end with the names of the relative place, but for
    steps back in front of these. -/
theorem exists_kept {below : Place} (hne : below ≠ []) :
    ∃ backs kept, readNames below = List.replicate backs ['.', '.'] ++ kept ∧
      ∀ place : Place, ∃ front,
        names ((slashed ((place ++ below).map String.toList)).map slash) = front ++ kept := by
  obtain ⟨more, hmore⟩ : ∃ more, (slashed (below.map String.toList)).map slash = '/' :: more := by
    obtain ⟨name, rest, rfl⟩ := List.exists_cons_of_ne_nil hne
    exact ⟨_, rfl⟩
  obtain ⟨last, backs, -, hfalse, htrue⟩ :=
    foldl_follow_back (splitChars '/' more) (List.not_mem_nil (a := ['.', '.'])) 0
  refine ⟨backs, last.reverse, ?_, fun place => ?_⟩
  · unfold readNames names
    rw [List.map_cons, hmore]
    have hcut : splitChars '/' (slash '.' :: '/' :: more) = ['.'] :: splitChars '/' more :=
      splitChars_append_sep ['.'] more
    have hstart : isRooted (slash '.' :: '/' :: more) = false := rfl
    have hfirst : follow false [] ['.'] = [] := rfl
    rw [hcut, hstart, List.foldl_cons, hfirst]
    simpa using congrArg List.reverse hfalse
  · obtain ⟨front, hfront⟩ := htrue
      ((splitChars '/' ((slashed (place.map String.toList)).map slash)).foldl (follow true) [])
    refine ⟨front.reverse, ?_⟩
    have hmap : (slashed ((place ++ below).map String.toList)).map slash =
        (slashed (place.map String.toList)).map slash ++ '/' :: more := by
      rw [List.map_append, slashed_append, List.map_append, hmore]
    have hrooted : isRooted ((slashed (place.map String.toList)).map slash ++ '/' :: more) = true := by
      cases place <;> rfl
    unfold names
    rw [hmap, hrooted, splitChars_append_sep, List.foldl_append, ← List.reverse_append]
    exact congrArg _ hfront

/-- A run that is in a list stands there for a last time. -/
theorem exists_last_run {α : Type} {run names : List α} (h : run <:+: names) :
    ∃ above behind, names = above ++ run ++ behind ∧
      ∀ front back, run ++ behind = front ++ run ++ back → front = [] := by
  obtain ⟨above, behind, he⟩ := h
  induction hn : behind.length using Nat.strongRecOn generalizing above behind with
  | ind n ih =>
    by_cases hlast : ∀ front back, run ++ behind = front ++ run ++ back → front = []
    · exact ⟨above, behind, he.symm, hlast⟩
    · -- The run stands there once more, and less lies behind it.
      obtain ⟨front, back, hagain, hfront⟩ :
          ∃ front back, run ++ behind = front ++ run ++ back ∧ front ≠ [] := by
        simpa only [not_forall, exists_prop] using hlast
      have hlength := congrArg List.length hagain
      simp only [List.length_append] at hlength
      have hpos := List.length_pos_iff.2 hfront
      refine ih back.length (by omega) (above ++ front) back ?_ rfl
      rw [← he, List.append_assoc above run behind, hagain]
      simp

/-- Names without steps back that stand behind some are not among these. -/
theorem infix_of_infix_backs {run kept : List (List Char)} {backs : Nat} (hrun : ['.', '.'] ∉ run)
    (hne : run ≠ []) (h : run <:+: List.replicate backs ['.', '.'] ++ kept) : run <:+: kept := by
  induction backs with
  | zero => simpa using h
  | succ backs ih =>
    rw [List.replicate_succ, List.cons_append, List.infix_cons_iff] at h
    rcases h with hprefix | hinfix
    · obtain ⟨name, run, rfl⟩ := List.exists_cons_of_ne_nil hne
      rw [(List.cons_prefix_cons.1 hprefix).1] at hrun
      exact absurd (List.mem_cons_self ..) hrun
    · exact ih hinfix

/-- **What follows the routes root in the path of a file does not depend on what the path starts with.** -/
theorem belowRoot?_below {marker : String} {below : Place} (h : HasRoot marker below) :
    ∃ rest, ∀ place : Place, belowRoot? (plainMarker marker)
      (normalChars (Place.text (place ++ below)).toList) = some rest := by
  have hne := ne_nil_of_hasRoot h
  obtain ⟨backs, kept, hread, hplaces⟩ := exists_kept hne
  have hrun_ne : (markerNames marker).map String.toList ≠ [] := by simp [markerNames_ne_nil]
  have hrun_back : ['.', '.'] ∉ (markerNames marker).map String.toList := by
    intro hmem
    obtain ⟨name, hname, hchars⟩ := List.mem_map.1 hmem
    obtain rfl : name = ".." := String.toList_inj.1 hchars
    exact h.ne_above hname
  have hmarker : plainMarker marker ≠ [] := plainMarker_ne_nil fun name hname he =>
    (names_tidy _ _ (h.run.subset (List.mem_map_of_mem hname))).1 (String.toList_eq_nil_iff.2 he)
  obtain ⟨above, behind, rfl, hlast⟩ :=
    exists_last_run (infix_of_infix_backs hrun_back hrun_ne (hread ▸ h.run))
  refine ⟨slashed behind, fun place => ?_⟩
  obtain ⟨front, hnames⟩ := hplaces place
  have hslash := names_tidy ((slashed ((place ++ below).map String.toList)).map slash)
  rw [hnames, ← List.append_assoc, ← List.append_assoc] at hslash
  have hnormal : normalChars (slashed ((place ++ below).map String.toList)) =
      slashed (front ++ above ++ (markerNames marker).map String.toList ++ behind) := by
    have hrooted : isRooted ((slashed ((place ++ below).map String.toList)).map slash) = true := by
      obtain ⟨name, rest, hcons⟩ := List.exists_cons_of_ne_nil (List.append_ne_nil_of_right_ne_nil place hne)
      rw [hcons]
      rfl
    unfold normalChars ofNames
    simp only [hnames, hrooted, if_true]
    rw [cons_joinChars (by simp [markerNames_ne_nil])]
    simp
  rw [placeText_toList (by simp [hne]), hnormal]
  unfold belowRoot?
  rw [if_neg (by simpa using hmarker), lastBehind?_true,
    lastBehind?_slashed (cons_plainMarker marker) hlast fun name hname => (hslash name hname).2]
  rfl

/-- **A file below a place has the same route wherever the place is.** -/
theorem exists_route_below {marker : String} {below : Place} (h : HasRoot marker below)
    (fileName : String) : ∃ path, ∀ (strict : Bool) (place : Place),
      route marker fileName strict (Place.text (place ++ below)) = pure path := by
  obtain ⟨rest, hrest⟩ := belowRoot?_below h
  refine ⟨routeOf fileName rest, fun strict place => ?_⟩
  unfold route
  simp only [hrest place]

/-- A place has the routes root where the names of the marker stand in it, and neither these nor the names
    behind them have a backslash. -/
theorem HasRoot.of_names {marker : String} (top : Place) {rest : Place}
    (hnames : ∀ name ∈ markerNames marker ++ rest, IsEntryName name)
    (hrest : ∀ name ∈ rest, '\\' ∉ name.toList) :
    HasRoot marker (top ++ (markerNames marker ++ rest)) where
  run := by
    have hclean : ∀ name ∈ (markerNames marker ++ rest).map String.toList, IsClean name := by
      refine List.forall_mem_map.2 fun name hname => isClean_toList (hnames name hname) ?_
      exact (List.mem_append.1 hname).elim not_mem_markerNames (hrest name)
    have hslashes : (slashed ((markerNames marker ++ rest).map String.toList)).map slash =
        slashed ((markerNames marker ++ rest).map String.toList) :=
      map_slash_eq (not_mem_slashed (by decide) fun name hname => (hclean name hname).no_backslash)
    unfold readNames names
    rw [List.map_append, slashed_append, ← List.cons_append, List.map_append, hslashes,
      splitChars_slashed fun name hname => (hclean name hname).no_slash, List.foldl_append,
      foldl_follow_clean hclean, List.reverse_append, List.reverse_reverse, List.map_append]
    exact ⟨_, _, List.append_assoc ..⟩
  ne_above hmem := (hnames ".." (List.mem_append_left _ hmem)).ne_above rfl

end RouteAtlas.Location
