/-
  RouteAtlas: routes and the directories that they name.

  * `slashed names` is the path of names from the root; its normal form keeps the clean names at its end
    (`normalChars_slashed`);
  * `LiesBehind run place rest` says that `rest` is what stands in a place behind the last run of some
    names; where the names are those of the routes marker, this is what the route is made of
    (`belowRoot?_slashed`);
  * `route_eq` is the route of a file by the names of its place.
-/
import RouteAtlas.Location
import RouteAtlas.Proofs.FileTree.Plain

namespace RouteAtlas.Location

open RouteAtlas.Text

/-! ## Paths from the root -/

/-- The path of names from the root: each name behind a slash. -/
def slashed (names : List (List Char)) : List Char :=
  names.flatMap fun name => '/' :: name

@[simp] theorem slashed_nil : slashed [] = [] := rfl

@[simp] theorem slashed_cons (name : List Char) (names : List (List Char)) :
    slashed (name :: names) = '/' :: (name ++ slashed names) := rfl

@[simp] theorem slashed_append (names more : List (List Char)) :
    slashed (names ++ more) = slashed names ++ slashed more :=
  List.flatMap_append

theorem cons_joinChars : ∀ {names : List (List Char)}, names ≠ [] →
    '/' :: joinChars ['/'] names = slashed names
  | [name], _ => by simp [joinChars]
  | name :: next :: names, _ => by
    rw [joinChars, slashed_cons, ← cons_joinChars (List.cons_ne_nil next names)]
    · simp
    · simp

/-- The text of a place is its path, but for the place of the root. -/
theorem placeText_toList {place : Place} (hne : place ≠ []) :
    place.text.toList = slashed (place.map String.toList) := by
  rw [← cons_joinChars (by simpa using hne)]
  simp [Place.text, joinWith]

theorem isRooted_slashed {names : List (List Char)} (hne : names ≠ []) :
    isRooted (slashed names) = true := by
  cases names with
  | nil => exact absurd rfl hne
  | cons name names => rfl

theorem isNameEnd_cons (c : Char) (cs : List Char) : isNameEnd (c :: cs) = true ↔ c = '/' := by
  simp [isNameEnd]

theorem isNameEnd_slashed (names : List (List Char)) : isNameEnd (slashed names) = true := by
  cases names <;> rfl

/-- The parts of a text between slashes, each behind a slash, are the text behind a slash. -/
theorem slashed_splitChars (cs : List Char) : slashed (splitChars '/' cs) = '/' :: cs := by
  have h : ∀ part, slashed (splitFrom '/' part cs) = '/' :: (part.reverse ++ cs) := by
    induction cs with
    | nil => intro part; simp [splitFrom]
    | cons c cs ih =>
      intro part
      rw [splitFrom]
      split
      · rename_i hc
        rw [slashed_cons, ih, beq_iff_eq.1 hc]
        simp
      · rw [ih]
        simp
  exact h []

theorem splitChars_slashed : ∀ {names : List (List Char)}, (∀ name ∈ names, '/' ∉ name) →
    ∀ front, splitChars '/' (front ++ slashed names) = splitChars '/' front ++ names
  | [], _, front => by simp
  | name :: names, h, front => by
    obtain ⟨hname, hnames⟩ := List.forall_mem_cons.1 h
    rw [slashed_cons, splitChars_append_sep, splitChars_slashed hnames]
    unfold splitChars
    rw [splitFrom_last hname]
    simp

/-! ## Normal form -/

/-- A name that the normal form of a path keeps as it is. -/
structure IsClean (name : List Char) : Prop where
  ne_nil : name ≠ []
  ne_point : name ≠ ['.']
  ne_above : name ≠ ['.', '.']
  no_slash : '/' ∉ name
  no_backslash : '\\' ∉ name

/-- A name of an entry is clean if there is no backslash in it. -/
theorem isClean_toList {name : String} (h : IsEntryName name) (hslash : '\\' ∉ name.toList) :
    IsClean name.toList where
  ne_nil he := h.ne_empty (String.toList_inj.1 he)
  ne_point he := h.ne_point (String.toList_inj.1 he)
  ne_above he := h.ne_above (String.toList_inj.1 he)
  no_slash := h.no_slash
  no_backslash := hslash

theorem mem_follow {rooted : Bool} {place : List (List Char)} {step name : List Char}
    (h : name ∈ follow rooted place step) : name ∈ place ∨ name = step := by
  unfold follow at h
  split at h
  · exact Or.inl h
  · split at h
    · split at h
      · split at h
        · exact Or.inl h
        · exact Or.inr (List.mem_singleton.1 h)
      · split at h
        · exact (List.mem_cons.1 h).symm
        · exact Or.inl (List.mem_cons_of_mem _ h)
    · exact (List.mem_cons.1 h).symm

/-- Steps lead to a place of names from before and of steps. -/
theorem mem_foldl_follow {rooted : Bool} {steps place : List (List Char)} {name : List Char}
    (h : name ∈ steps.foldl (follow rooted) place) : name ∈ place ∨ name ∈ steps := by
  induction steps generalizing place with
  | nil => exact Or.inl h
  | cons step steps ih =>
    rcases ih h with h | h
    · exact (mem_follow h).imp_right fun he => List.mem_cons.2 (Or.inl he)
    · exact Or.inr (List.mem_cons_of_mem _ h)

/-- Clean names are steps to the names. -/
theorem foldl_follow_clean {rooted : Bool} :
    ∀ {names : List (List Char)}, (∀ name ∈ names, IsClean name) → ∀ place,
      names.foldl (follow rooted) place = names.reverse ++ place
  | [], _, place => rfl
  | name :: names, h, place => by
    obtain ⟨hname, hnames⟩ := List.forall_mem_cons.1 h
    have hstep : follow rooted place name = name :: place := by
      simp [follow, hname.ne_nil, hname.ne_point, hname.ne_above]
    rw [List.foldl_cons, hstep, foldl_follow_clean hnames]
    simp

theorem slash_ne_backslash (c : Char) : slash c ≠ '\\' := by
  unfold slash
  split
  · decide
  · rename_i h
    simpa using h

theorem map_slash_eq {cs : List Char} (h : '\\' ∉ cs) : cs.map slash = cs := by
  refine (List.map_congr_left fun c hc => ?_).trans (List.map_id cs)
  have hne : c ≠ '\\' := fun he => h (he ▸ hc)
  simp [slash, hne]

theorem not_mem_slashed {c : Char} (hc : c ≠ '/') {names : List (List Char)}
    (h : ∀ name ∈ names, c ∉ name) : c ∉ slashed names := by
  intro hmem
  obtain ⟨name, hname, hin⟩ := List.mem_flatMap.1 hmem
  exact h name hname ((List.mem_cons.1 hin).resolve_left hc)

/-- **The normal form of a path keeps the clean names at its end.** -/
theorem normalChars_slashed (top : List (List Char)) {names : List (List Char)} (hne : names ≠ [])
    (h : ∀ name ∈ names, IsClean name) :
    ∃ above, (∀ name ∈ above, '/' ∉ name) ∧
      normalChars (slashed (top ++ names)) = slashed (above ++ names) := by
  have hmap : (slashed (top ++ names)).map slash = (slashed top).map slash ++ slashed names := by
    have hclean : '\\' ∉ slashed names :=
      not_mem_slashed (by decide) fun name hname => (h name hname).no_backslash
    rw [slashed_append, List.map_append, map_slash_eq hclean]
  have hrooted : isRooted ((slashed top).map slash ++ slashed names) = true := by
    cases top with
    | nil => exact isRooted_slashed hne
    | cons name top => rfl
  refine ⟨((splitChars '/' ((slashed top).map slash)).foldl (follow true) []).reverse,
    fun name hname => ?_, ?_⟩
  · have hpart := (mem_foldl_follow (List.mem_reverse.1 hname)).resolve_left List.not_mem_nil
    exact not_mem_of_mem_splitFrom (by simp) hpart
  · unfold normalChars
    simp only [hmap]
    unfold ofNames Location.names
    rw [hrooted, splitChars_slashed fun name hname => (h name hname).no_slash, List.foldl_append,
      foldl_follow_clean h, List.reverse_append, List.reverse_reverse, if_pos rfl,
      cons_joinChars (by simp [hne])]

/-- There is no backslash in the normal form of a path. -/
theorem not_mem_normalChars (path : List Char) : '\\' ∉ normalChars path := by
  have hslashed : '\\' ∉ '/' :: path.map slash := by
    simpa using fun c _ => slash_ne_backslash c
  have hnames : ∀ name ∈ names (path.map slash), '\\' ∉ name := by
    intro name hname hin
    have hpart := (mem_foldl_follow (List.mem_reverse.1 hname)).resolve_left List.not_mem_nil
    rw [← slashed_splitChars] at hslashed
    exact hslashed (List.mem_flatMap.2 ⟨name, hpart, List.mem_cons_of_mem _ hin⟩)
  unfold normalChars ofNames
  simp only
  generalize names (path.map slash) = ns at hnames
  have hjoined : '\\' ∉ joinChars ['/'] ns := by
    cases ns with
    | nil => simp [joinChars]
    | cons name ns =>
      have h := not_mem_slashed (by decide) hnames
      rw [← cons_joinChars (List.cons_ne_nil name ns)] at h
      exact fun hmem => h (List.mem_cons_of_mem _ hmem)
  split
  · simpa using hjoined
  · split
    · decide
    · exact hjoined

/-! ## The routes root -/

/-- The names of the routes marker. -/
def markerNames (marker : String) : Place :=
  (splitChars '/' (plainMarker marker)).map String.ofList

/-- What stands in a place behind the last run of some names. -/
structure LiesBehind (run place rest : Place) : Prop where
  found : ∃ top, place = top ++ run ++ rest
  last : ∀ front back, run ++ rest = front ++ run ++ back → front = []

/-- Names lie behind the last run of some others if the first of these is not among them again. -/
theorem LiesBehind.of_notMem {first : String} {run rest : Place} (h : first ∉ run ++ rest)
    (top : Place) : LiesBehind (first :: run) (top ++ (first :: run) ++ rest) rest where
  found := ⟨top, rfl⟩
  last front back he := by
    cases front with
    | nil => rfl
    | cons name front =>
      have htails : run ++ rest = front ++ first :: run ++ back := (List.cons.inj he).2
      exact absurd (htails ▸ by simp) h

/-- A run is the last one among lists of characters too. -/
theorem LiesBehind.last_chars {run place rest : Place} (h : LiesBehind run place rest)
    {front back : List (List Char)} (he : run.map String.toList ++ rest.map String.toList =
      front ++ run.map String.toList ++ back) : front = [] := by
  have hnames := congrArg (List.map String.ofList) he
  simp only [List.map_append, List.map_map, Function.comp_def, String.ofList_toList,
    List.map_id'] at hnames
  simpa using h.last _ _ hnames

theorem cons_plainMarker (marker : String) :
    '/' :: plainMarker marker = slashed ((markerNames marker).map String.toList) := by
  rw [← slashed_splitChars]
  simp [markerNames, Function.comp_def]

theorem markerNames_ne_nil (marker : String) : markerNames marker ≠ [] := by
  intro he
  have hm := cons_plainMarker marker
  rw [he] at hm
  cases hm

/-- A marker whose names are not empty is not empty. -/
theorem plainMarker_ne_nil {marker : String} (h : ∀ name ∈ markerNames marker, name ≠ "") :
    plainMarker marker ≠ [] := by
  intro he
  have hm := cons_plainMarker marker
  obtain ⟨name, names, hnames⟩ := List.exists_cons_of_ne_nil (markerNames_ne_nil marker)
  rw [he, hnames] at hm
  have hempty : name.toList = [] := (List.append_eq_nil_iff.1 (List.cons.inj hm).2.symm).1
  exact h name (by simp [hnames]) (String.toList_eq_nil_iff.1 hempty)

theorem not_mem_plainMarker (marker : String) : '\\' ∉ plainMarker marker := by
  intro hmem
  unfold plainMarker stripChars at hmem
  have hmem := (List.dropWhile_sublist _).subset (List.mem_reverse.1 hmem)
  exact not_mem_normalChars _ ((List.dropWhile_sublist _).subset (List.mem_reverse.1 hmem))

theorem not_mem_markerNames {marker name : String} (h : name ∈ markerNames marker) :
    '\\' ∉ name.toList := by
  intro hin
  have hmem : '\\' ∈ slashed ((markerNames marker).map String.toList) :=
    List.mem_flatMap.2 ⟨_, List.mem_map_of_mem h, List.mem_cons_of_mem _ hin⟩
  rw [← cons_plainMarker] at hmem
  exact not_mem_plainMarker marker ((List.mem_cons.1 hmem).resolve_left (by decide))

section
variable {marker : List Char} {run names : List (List Char)}

/-- Names end at the first slash. -/
theorem append_eq_append_of_name {name other rest more : List Char} (hname : '/' ∉ name)
    (hother : '/' ∉ other) (hrest : isNameEnd rest = true) (hmore : isNameEnd more = true)
    (h : name ++ rest = other ++ more) : name = other ∧ rest = more := by
  induction name generalizing other with
  | nil =>
    cases other with
    | nil => exact ⟨rfl, h⟩
    | cons d ds =>
      rw [List.nil_append] at h
      rw [h, List.cons_append, isNameEnd_cons] at hrest
      exact absurd (List.mem_cons.2 (Or.inl hrest.symm)) hother
  | cons c cs ih =>
    cases other with
    | nil =>
      rw [List.nil_append] at h
      rw [← h, List.cons_append, isNameEnd_cons] at hmore
      exact absurd (List.mem_cons.2 (Or.inl hmore.symm)) hname
    | cons d ds =>
      obtain ⟨rfl, htails⟩ := List.cons.inj h
      obtain ⟨rfl, heq⟩ := ih (fun hmem => hname (List.mem_cons_of_mem _ hmem))
        (fun hmem => hother (List.mem_cons_of_mem _ hmem)) htails
      exact ⟨rfl, heq⟩

/-- A path starts with the path of some names, and a name ends there, where its names start with
    them. -/
theorem slashed_eq_append_iff {rest : List Char} (hrest : isNameEnd rest = true)
    (hrun : ∀ name ∈ run, '/' ∉ name) (hnames : ∀ name ∈ names, '/' ∉ name) :
    slashed names = slashed run ++ rest ↔ ∃ behind, names = run ++ behind ∧ rest = slashed behind := by
  constructor
  · intro h
    induction run generalizing names with
    | nil => exact ⟨names, rfl, h.symm⟩
    | cons first run ih =>
      cases names with
      | nil => simp at h
      | cons name names =>
        obtain ⟨hfirst, hothers⟩ := List.forall_mem_cons.1 hrun
        obtain ⟨hname, hmore⟩ := List.forall_mem_cons.1 hnames
        rw [slashed_cons, slashed_cons, List.cons_append, List.append_assoc] at h
        have hend : isNameEnd (slashed run ++ rest) = true := by
          cases run with
          | nil => exact hrest
          | cons => rfl
        obtain ⟨rfl, htails⟩ := append_eq_append_of_name hname hfirst (isNameEnd_slashed names) hend
          (List.cons.inj h).2
        obtain ⟨behind, rfl, hbehind⟩ := ih hothers hmore htails
        exact ⟨behind, rfl, hbehind⟩
  · rintro ⟨behind, rfl, rfl⟩
    rw [slashed_append]

/-- What follows a marker at the start of a name. -/
theorem behind?_eq_some_iff (hm : '/' :: marker = slashed run) (hrun : ∀ name ∈ run, '/' ∉ name)
    {name : List Char} (hnames : ∀ n ∈ name :: names, '/' ∉ n) {rest : List Char} :
    behind? marker (name ++ slashed names) = some rest ↔
      ∃ behind, name :: names = run ++ behind ∧ rest = slashed behind := by
  have hiff : behind? marker (name ++ slashed names) = some rest ↔
      isNameEnd rest = true ∧ slashed (name :: names) = slashed run ++ rest := by
    unfold behind?
    rw [Option.filter_eq_some_iff, dropStartChars?_eq_some_iff, and_comm, ← hm, slashed_cons,
      List.cons_append, List.cons.injEq, and_iff_right rfl]
  rw [hiff]
  constructor
  · rintro ⟨hend, h⟩
    exact (slashed_eq_append_iff hend hrun hnames).1 h
  · rintro ⟨behind, h, rfl⟩
    exact ⟨isNameEnd_slashed behind,
      (slashed_eq_append_iff (isNameEnd_slashed behind) hrun hnames).2 ⟨behind, h, rfl⟩⟩

theorem lastBehind?_true (path : List Char) :
    lastBehind? marker true path = (lastBehind? marker false path).or (behind? marker path) := by
  cases path with
  | nil => rfl
  | cons c rest => simp [lastBehind?]

/-- The marker does not start within a name. -/
theorem lastBehind?_append {name : List Char} (h : '/' ∉ name) (rest : List Char) :
    lastBehind? marker false (name ++ rest) = lastBehind? marker false rest := by
  induction name with
  | nil => rfl
  | cons c cs ih =>
    obtain ⟨hc, hcs⟩ := not_or.1 (mt List.mem_cons.2 h)
    have hfresh : (c == '/') = false := by simpa using Ne.symm hc
    rw [List.cons_append, lastBehind?, hfresh, ih hcs]
    simp

theorem lastBehind?_slashed_cons {name : List Char} (h : '/' ∉ name) :
    lastBehind? marker false (slashed (name :: names)) =
      (lastBehind? marker false (slashed names)).or (behind? marker (name ++ slashed names)) := by
  rw [slashed_cons, lastBehind?]
  simp [lastBehind?_true, lastBehind?_append h]

/-- Nothing follows a marker that does not occur. -/
theorem lastBehind?_eq_none (hm : '/' :: marker = slashed run) (hrun : ∀ name ∈ run, '/' ∉ name)
    (hnames : ∀ name ∈ names, '/' ∉ name) (h : ∀ front back, names ≠ front ++ run ++ back) :
    lastBehind? marker false (slashed names) = none := by
  induction names with
  | nil => rfl
  | cons name names ih =>
    obtain ⟨hname, hrest⟩ := List.forall_mem_cons.1 hnames
    have hhere : behind? marker (name ++ slashed names) = none := by
      refine Option.eq_none_iff_forall_ne_some.2 fun rest hsome => ?_
      obtain ⟨behind, he, -⟩ := (behind?_eq_some_iff hm hrun hnames).1 hsome
      exact h [] behind he
    rw [lastBehind?_slashed_cons hname, hhere,
      ih hrest fun front back he => h (name :: front) back (by simp [he])]
    rfl

/-- What follows the last run of the names of a marker. -/
theorem lastBehind?_slashed (hm : '/' :: marker = slashed run) {behind : List (List Char)}
    (hlast : ∀ front back, run ++ behind = front ++ run ++ back → front = []) :
    ∀ {above : List (List Char)}, (∀ name ∈ above ++ run ++ behind, '/' ∉ name) →
      lastBehind? marker false (slashed (above ++ run ++ behind)) = some (slashed behind)
  | [], hnames => by
    rw [List.nil_append] at hnames ⊢
    have hrun : ∀ name ∈ run, '/' ∉ name := (List.forall_mem_append.1 hnames).1
    cases run with
    | nil => cases hm
    | cons name run =>
      rw [List.cons_append] at hnames ⊢
      obtain ⟨hname, hrest⟩ := List.forall_mem_cons.1 hnames
      -- A later run would be another one behind this one.
      have hnone := lastBehind?_eq_none hm hrun hrest fun front back he =>
        List.cons_ne_nil name front (hlast _ back (by simp [he]))
      rw [lastBehind?_slashed_cons hname, hnone,
        (behind?_eq_some_iff hm hrun hnames).2 ⟨behind, rfl, rfl⟩]
      rfl
  | name :: above, hnames => by
    rw [List.cons_append, List.cons_append] at hnames ⊢
    obtain ⟨hname, hrest⟩ := List.forall_mem_cons.1 hnames
    rw [lastBehind?_slashed_cons hname, lastBehind?_slashed hm hlast hrest]
    rfl

end

/-- **What follows the routes root is what lies behind its last place.** -/
theorem belowRoot?_slashed {marker : String} {place rest : Place}
    (h : LiesBehind (markerNames marker) place rest) (hplace : ∀ name ∈ place, IsEntryName name)
    (hrest : ∀ name ∈ rest, '\\' ∉ name.toList) :
    belowRoot? (plainMarker marker) (normalChars (slashed (place.map String.toList))) =
      some (slashed (rest.map String.toList)) := by
  obtain ⟨top, rfl⟩ := h.found
  rw [List.append_assoc] at hplace ⊢
  have hbehind : ∀ name ∈ markerNames marker ++ rest, IsEntryName name := fun name hname =>
    hplace name (List.mem_append_right _ hname)
  have hclean : ∀ name ∈ (markerNames marker ++ rest).map String.toList, IsClean name := by
    refine List.forall_mem_map.2 fun name hname => isClean_toList (hbehind name hname) ?_
    rcases List.mem_append.1 hname with hname | hname
    · exact not_mem_markerNames hname
    · exact hrest name hname
  obtain ⟨above, habove, hnormal⟩ :=
    normalChars_slashed (top.map String.toList) (by simp [markerNames_ne_nil]) hclean
  have hne : plainMarker marker ≠ [] := plainMarker_ne_nil fun name hname =>
    (hbehind name (List.mem_append_left _ hname)).ne_empty
  have htop : (top ++ (markerNames marker ++ rest)).map String.toList =
      top.map String.toList ++ (markerNames marker ++ rest).map String.toList := List.map_append
  rw [htop, hnormal, List.map_append, ← List.append_assoc]
  unfold belowRoot?
  rw [if_neg (by simpa using hne), lastBehind?_true,
    lastBehind?_slashed (cons_plainMarker marker) (fun _ _ => h.last_chars) ?_]
  · rfl
  · rw [List.append_assoc, ← List.map_append]
    exact List.forall_mem_append.2 ⟨habove, fun name hname => (hclean name hname).no_slash⟩

/-! ## Routes -/

/-- What stands behind the last slash of two equal texts is equal. -/
theorem append_cons_inj {front more name other : List Char} (hname : '/' ∉ name)
    (hother : '/' ∉ other) (h : front ++ '/' :: name = more ++ '/' :: other) :
    front = more ∧ name = other := by
  have hrev := congrArg List.reverse h
  rw [List.reverse_append, List.reverse_append, List.reverse_cons, List.reverse_cons,
    List.append_assoc, List.append_assoc] at hrev
  obtain ⟨hn, hrest⟩ := append_eq_append_of_name (by simpa using hname) (by simpa using hother) rfl
    rfl hrev
  exact ⟨List.reverse_inj.1 (List.cons.inj hrest).2, List.reverse_inj.1 hn⟩

/-- The directory of a path is the path without its last name, if this is the name of the file. -/
theorem directoryOf_slashed {fileName name : List Char} (hfile : '/' ∉ fileName) (hname : '/' ∉ name)
    (directories : List (List Char)) :
    directoryOf fileName (slashed (directories ++ [name])) =
      slashed (if name = fileName then directories else directories ++ [name]) := by
  have hpath : slashed (directories ++ [name]) = slashed directories ++ '/' :: name := by simp
  by_cases he : name = fileName
  · subst he
    unfold directoryOf
    rw [hpath, dropEndChars?_eq_some_iff.2 rfl, if_pos rfl]
  · have hdrop : dropEndChars? ('/' :: fileName) (slashed (directories ++ [name])) = none := by
      refine Option.eq_none_iff_forall_ne_some.2 fun front hsome => ?_
      rw [dropEndChars?_eq_some_iff, hpath] at hsome
      exact he (append_cons_inj hname hfile hsome).2
    have hne : slashed (directories ++ [name]) ≠ fileName := by
      rintro rfl
      exact hfile (by simp)
    unfold directoryOf
    rw [hdrop, if_neg he]
    exact if_neg (by simpa using hne)

/-- The route of names is their place. -/
theorem routeOf_slashed {fileName name : String} (hfile : '/' ∉ fileName.toList)
    (hname : '/' ∉ name.toList) (directories : Place) :
    routeOf fileName (slashed ((directories ++ [name]).map String.toList)) =
      Place.text (if name = fileName then directories else directories ++ [name]) := by
  have htext : ∀ place : Place, (.ofList (if isRooted (slashed (place.map String.toList)) then
      slashed (place.map String.toList) else '/' :: slashed (place.map String.toList)) : String) =
        place.text := by
    intro place
    cases place with
    | nil => rfl
    | cons n place =>
      rw [isRooted_slashed (by simp), if_pos rfl, ← placeText_toList (List.cons_ne_nil n place),
        String.ofList_toList]
  have hdirectory : directoryOf fileName.toList (slashed ((directories ++ [name]).map String.toList)) =
      slashed ((if name = fileName then directories else directories ++ [name]).map String.toList) := by
    rw [List.map_append, List.map_singleton, directoryOf_slashed hfile hname]
    simp only [String.toList_inj]
    split <;> simp
  unfold routeOf
  simp only [hdirectory]
  exact htext _

variable {marker fileName name : String} {place directories : Place}

/-- **The route of a file below the routes root.**  It names the directories between the two, and no
    more if the name of the file is the one that is looked for. -/
theorem route_eq (h : LiesBehind (markerNames marker) place (directories ++ [name]))
    (hplace : ∀ n ∈ place, IsEntryName n) (hslash : ∀ n ∈ directories ++ [name], '\\' ∉ n.toList)
    (hfile : '/' ∉ fileName.toList) (strict : Bool) :
    route marker fileName strict place.text =
      pure (Place.text (if name = fileName then directories else directories ++ [name])) := by
  have hname : IsEntryName name := by
    obtain ⟨⟨top, rfl⟩, -⟩ := h
    exact hplace name (by simp)
  have hne : place ≠ [] := by
    obtain ⟨⟨top, rfl⟩, -⟩ := h
    simp
  unfold route
  simp only
  rw [placeText_toList hne, belowRoot?_slashed h hplace hslash]
  simp only
  rw [routeOf_slashed hfile hname.no_slash]

end RouteAtlas.Location
