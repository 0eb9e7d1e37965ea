/-
  RouteAtlas: routes by the components of paths.

  * `components path` are the parts of a path between its slashes; `fromRoot_normalChars` writes a path in
    normal form with them, and `markerNames_eq` says that the names of the routes marker are its
    components;
  * `belowRoot?_behind` and `belowRoot?_none`: the routes root is in a path where the components of the
    marker are a run of those of the path, and the last such run counts;
  * `routeOf_eq`: the route of what follows are its components, without the name of the file at the end;
  * `route_components` is the route of a file by the components of its path and of the marker.
-/
import RouteAtlas.Proofs.Location.Below
import RouteAtlas.Proofs.Location.Search

namespace RouteAtlas.Location

open RouteAtlas.Text

/-! ## Components -/

/-- The components of a path: what stands between its slashes, but for what is empty. -/
def components (path : String) : Place :=
  (splitOn '/' path).filter fun name => name ≠ ""

/-- A place without the name of a file at its end. -/
def withoutFile (fileName : String) (place : Place) : Place :=
  if place.getLast? = some fileName then place.dropLast else place

/-- The components of a path with single slashes between names. -/
theorem components_of_fromRoot {path : List Char} {names : List (List Char)}
    (hnames : ∀ name ∈ names, name ≠ [] ∧ '/' ∉ name)
    (hpath : fromRoot path = '/' :: joinChars ['/'] names) :
    components (.ofList path) = names.map String.ofList := by
  have hfilter : components (.ofList path) =
      ((splitChars '/' path).filter fun name => name ≠ []).map String.ofList := by
    simp [components, splitOn, List.filter_map, Function.comp_def]
  have hroot : ((splitChars '/' path).filter fun name => name ≠ []) =
      (splitChars '/' (fromRoot path)).filter fun name => name ≠ [] := by
    unfold fromRoot
    split
    · rfl
    · simp [splitChars_sep_cons]
  rw [hfilter, hroot, hpath]
  refine congrArg _ ?_
  by_cases hne : names = []
  · subst hne
    decide +kernel
  · have hsplit := splitChars_slashed (fun name hn => (hnames name hn).2) []
    rw [List.nil_append] at hsplit
    rw [cons_joinChars hne, hsplit]
    simpa [splitChars, splitFrom] using fun name hn => (hnames name hn).1

/-- **A path in normal form is made of its components.** -/
theorem fromRoot_normalChars (path : String) :
    (∀ name ∈ components (normal path), IsSegment name) ∧
      fromRoot (normalChars path.toList) =
        '/' :: joinChars ['/'] ((components (normal path)).map String.toList) := by
  obtain ⟨names, hnames, hpath⟩ := isTidy_normalChars path.toList
  have hcomponents : components (normal path) = names.map String.ofList :=
    components_of_fromRoot hnames hpath
  rw [hcomponents]
  refine ⟨List.forall_mem_map.2 fun name hname => ⟨?_, ?_⟩, ?_⟩
  · simpa using (hnames name hname).1
  · simpa using (hnames name hname).2
  · simpa [Function.comp_def] using hpath

/-! ## The marker -/

/-- Names with slashes between them do not start with a slash. -/
theorem exists_joinChars_eq_cons {names : List (List Char)} (hne : names ≠ [])
    (hnames : ∀ name ∈ names, name ≠ [] ∧ '/' ∉ name) :
    ∃ c rest, joinChars ['/'] names = c :: rest ∧ c ≠ '/' := by
  obtain ⟨name, rest, rfl⟩ := List.exists_cons_of_ne_nil hne
  obtain ⟨hname, hslash⟩ := hnames name (List.mem_cons_self ..)
  obtain ⟨c, cs, rfl⟩ := List.exists_cons_of_ne_nil hname
  have hc : c ≠ '/' := fun he => hslash (he ▸ List.mem_cons_self ..)
  cases rest with
  | nil => exact ⟨c, cs, rfl, hc⟩
  | cons next rest => exact ⟨c, _, rfl, hc⟩

/-- Names with slashes between them do not end with a slash. -/
theorem exists_joinChars_eq_concat : ∀ {names : List (List Char)}, names ≠ [] →
    (∀ name ∈ names, name ≠ [] ∧ '/' ∉ name) →
      ∃ front d, joinChars ['/'] names = front ++ [d] ∧ d ≠ '/'
  | [name], _, h => by
    obtain ⟨hname, hslash⟩ := h name (List.mem_cons_self ..)
    have hlast := List.dropLast_append_getLast hname
    exact ⟨name.dropLast, name.getLast hname, hlast.symm,
      fun he => hslash (he ▸ List.getLast_mem hname)⟩
  | name :: next :: names, _, h => by
    obtain ⟨front, d, hjoined, hd⟩ := exists_joinChars_eq_concat (List.cons_ne_nil next names)
      fun n hn => h n (List.mem_cons_of_mem _ hn)
    refine ⟨name ++ '/' :: front, d, ?_, hd⟩
    have hcons : joinChars ['/'] (name :: next :: names) =
        name ++ ['/'] ++ joinChars ['/'] (next :: names) := rfl
    rw [hcons, hjoined]
    simp

/-- Without slashes at the ends, a path with single slashes between names is the names. -/
theorem stripChars_of_fromRoot {path : List Char} {names : List (List Char)} (hne : names ≠ [])
    (hnames : ∀ name ∈ names, name ≠ [] ∧ '/' ∉ name)
    (hpath : fromRoot path = '/' :: joinChars ['/'] names) :
    stripChars ['/'] path = joinChars ['/'] names := by
  obtain ⟨c, rest, hfirst, hc⟩ := exists_joinChars_eq_cons hne hnames
  obtain ⟨front, d, hlast, hd⟩ := exists_joinChars_eq_concat hne hnames
  have hstart : path.dropWhile ['/'].contains = joinChars ['/'] names := by
    unfold fromRoot at hpath
    split at hpath
    · simp [hpath, hfirst, hc]
    · simp [(List.cons.inj hpath).2, hfirst, hc]
  unfold stripChars
  rw [hstart, hlast]
  simp [hd]

/-- **The names of the routes marker are its components**, if it has any. -/
theorem markerNames_eq {marker : String} (h : components (normal marker) ≠ []) :
    markerNames marker = components (normal marker) := by
  obtain ⟨hnames, hpath⟩ := fromRoot_normalChars marker
  have hchars : ∀ name ∈ (components (normal marker)).map String.toList, name ≠ [] ∧ '/' ∉ name :=
    List.forall_mem_map.2 fun name hn =>
      ⟨fun he => (hnames name hn).ne_empty (String.toList_eq_nil_iff.1 he), (hnames name hn).no_slash⟩
  have hne : (components (normal marker)).map String.toList ≠ [] := by simpa using h
  unfold markerNames plainMarker
  rw [stripChars_of_fromRoot hne hchars hpath,
    splitChars_joinChars hne fun name hn => (hchars name hn).2]
  simp [Function.comp_def]

/-! ## The routes root -/

/-- A marker that does not start with a slash is not found at the slash of the root. -/
theorem lastBehind?_fromRoot {marker : List Char} {c : Char} {rest : List Char} (hm : marker = c :: rest)
    (hc : c ≠ '/') (path : List Char) :
    lastBehind? marker true path = lastBehind? marker false (fromRoot path) := by
  subst hm
  have hcons : ∀ path, lastBehind? (c :: rest) false ('/' :: path) = lastBehind? (c :: rest) true path := by
    intro path
    simp [lastBehind?]
  unfold fromRoot
  split
  · rename_i hrooted
    obtain ⟨more, rfl⟩ : ∃ more, path = '/' :: more := by
      cases path with
      | nil => cases hrooted
      | cons d more => exact ⟨more, by simpa [isRooted] using hrooted⟩
    have hhere : behind? (c :: rest) ('/' :: more) = none := by
      simp [behind?, dropStartChars?, hc]
    rw [lastBehind?_true, hhere, Option.or_none]
  · rw [hcons]

section
variable {marker file : String}

/-- A marker with components does not start with a slash. -/
theorem exists_plainMarker_eq_cons (h : components (normal marker) ≠ []) :
    ∃ c rest, plainMarker marker = c :: rest ∧ c ≠ '/' := by
  have hmarker := cons_plainMarker marker
  rw [markerNames_eq h] at hmarker
  obtain ⟨first, more, hnames⟩ := List.exists_cons_of_ne_nil h
  have hfirst := (fromRoot_normalChars marker).1 first (by simp [hnames])
  obtain ⟨c, cs, hchars⟩ := List.exists_cons_of_ne_nil (mt String.toList_eq_nil_iff.1 hfirst.ne_empty)
  rw [hnames, List.map_cons, slashed_cons, hchars] at hmarker
  exact ⟨c, _, (List.cons.inj hmarker).2, fun he => hfirst.no_slash (by simp [hchars, he])⟩

/-- The routes root of a file is looked for among the components of its path. -/
theorem belowRoot?_eq (h : components (normal marker) ≠ []) :
    belowRoot? (plainMarker marker) (normalChars file.toList) =
      lastBehind? (plainMarker marker) false
        (slashed ((components (normal file)).map String.toList)) := by
  obtain ⟨c, rest, hm, hc⟩ := exists_plainMarker_eq_cons h
  unfold belowRoot?
  rw [if_neg (by simp [hm]), lastBehind?_fromRoot hm hc, (fromRoot_normalChars file).2]
  by_cases hne : (components (normal file)).map String.toList = []
  · rw [hne, hm]
    rfl
  · rw [cons_joinChars hne]

/-- What follows the last run of the components of the marker follows the routes root. -/
theorem belowRoot?_behind (h : components (normal marker) ≠ []) {rest : Place}
    (hrest : LiesBehind (components (normal marker)) (components (normal file)) rest) :
    belowRoot? (plainMarker marker) (normalChars file.toList) =
      some (slashed (rest.map String.toList)) := by
  have hm := cons_plainMarker marker
  rw [markerNames_eq h] at hm
  obtain ⟨top, htop⟩ := hrest.found
  have hnames : ∀ name ∈ (components (normal file)).map String.toList, '/' ∉ name :=
    List.forall_mem_map.2 fun name hn => ((fromRoot_normalChars file).1 name hn).no_slash
  rw [belowRoot?_eq h]
  rw [htop, List.map_append, List.map_append] at hnames ⊢
  exact lastBehind?_slashed hm (fun _ _ => hrest.last_chars) hnames

/-- Without a run of the components of the marker there is no routes root. -/
theorem belowRoot?_none (h : components (normal marker) ≠ [])
    (hrun : ¬ components (normal marker) <:+: components (normal file)) :
    belowRoot? (plainMarker marker) (normalChars file.toList) = none := by
  have hm := cons_plainMarker marker
  rw [markerNames_eq h] at hm
  have hslash : ∀ path : String, ∀ name ∈ (components (normal path)).map String.toList, '/' ∉ name :=
    fun path => List.forall_mem_map.2 fun name hn => ((fromRoot_normalChars path).1 name hn).no_slash
  rw [belowRoot?_eq h]
  refine lastBehind?_eq_none hm (hslash marker) (hslash file) fun front back he => hrun ?_
  have hnames := congrArg (List.map String.ofList) he
  simp only [List.map_append, List.map_map, Function.comp_def, String.ofList_toList,
    List.map_id'] at hnames
  exact ⟨_, _, hnames.symm⟩

/-- A run of components is the last one somewhere. -/
theorem exists_liesBehind {run place : Place} (h : run <:+: place) : ∃ rest, LiesBehind run place rest := by
  obtain ⟨above, behind, rfl, hlast⟩ := exists_last_run h
  exact ⟨behind, ⟨above, rfl⟩, hlast⟩

end

/-! ## Routes -/

theorem fromRoot_slashed (names : List (List Char)) :
    fromRoot (slashed names) = '/' :: joinChars ['/'] names := by
  by_cases hne : names = []
  · subst hne
    rfl
  · rw [fromRoot, if_pos (isRooted_slashed hne), cons_joinChars hne]

/-- A slash in front of a path without one stays in front of the directory. -/
theorem directoryOf_cons_slash {fileName path : List Char} (hfile : '/' ∉ fileName)
    (h : isRooted path = false) :
    fromRoot (directoryOf fileName ('/' :: path)) = fromRoot (directoryOf fileName path) := by
  have hroot : ∀ {cs : List Char}, isRooted cs = false → fromRoot ('/' :: cs) = fromRoot cs := by
    intro cs hcs
    have hslash : fromRoot ('/' :: cs) = '/' :: cs := rfl
    rw [hslash, fromRoot, hcs, if_neg Bool.false_ne_true]
  unfold directoryOf
  cases hdrop : dropEndChars? ('/' :: fileName) path with
  | some directory =>
    have hpath := dropEndChars?_eq_some_iff.1 hdrop
    have hdirectory : isRooted directory = false := by
      cases directory with
      | nil => simp [hpath, isRooted] at h
      | cons c cs => simpa [hpath, isRooted] using h
    have hslash : dropEndChars? ('/' :: fileName) ('/' :: path) = some ('/' :: directory) :=
      dropEndChars?_eq_some_iff.2 (by simp [hpath])
    rw [hslash]
    exact hroot hdirectory
  | none =>
    by_cases he : path = fileName
    · have hslash : dropEndChars? ('/' :: fileName) ('/' :: path) = some [] :=
        dropEndChars?_eq_some_iff.2 (by simp [he])
      rw [hslash]
      simp only
      rw [if_pos (beq_iff_eq.2 he)]
    · have hslash : dropEndChars? ('/' :: fileName) ('/' :: path) = none := by
        refine Option.eq_none_iff_forall_ne_some.2 fun directory hsome => ?_
        rw [dropEndChars?_eq_some_iff] at hsome
        cases directory with
        | nil => exact he (List.cons.inj hsome).2
        | cons c cs =>
          rw [dropEndChars?_eq_some_iff.2 (List.cons.inj hsome).2] at hdrop
          cases hdrop
      have hne : '/' :: path ≠ fileName := fun heq => hfile (heq ▸ List.mem_cons_self ..)
      rw [hslash]
      simp only
      rw [if_neg (mt beq_iff_eq.1 hne), if_neg (mt beq_iff_eq.1 he)]
      exact hroot h

/-- **The route of a path is its components**, without the name of the file. -/
theorem routeOf_eq {fileName : String} (hfile : '/' ∉ fileName.toList) {path : List Char} {names : Place}
    (hnames : ∀ name ∈ names, '/' ∉ name.toList)
    (hpath : fromRoot path = '/' :: joinChars ['/'] (names.map String.toList)) :
    routeOf fileName path = (withoutFile fileName names).text := by
  have hfrom : ∀ path, routeOf fileName path = .ofList (fromRoot (directoryOf fileName.toList path)) :=
    fun _ => rfl
  have hroot : routeOf fileName path = routeOf fileName (fromRoot path) := by
    by_cases h : isRooted path = true
    · rw [fromRoot, if_pos h]
    · have hnot : isRooted path = false := by simpa using h
      rw [hfrom, hfrom, fromRoot.eq_def path, if_neg h, directoryOf_cons_slash hfile hnot]
  rw [hroot, hpath]
  rcases List.eq_nil_or_concat names with rfl | ⟨directories, name, rfl⟩
  · have hdirectory : directoryOf fileName.toList ['/'] = [] ∨
        directoryOf fileName.toList ['/'] = ['/'] := by
      rcases directoryOf_cases fileName.toList ['/'] with hd | hd | hd
      · exact Or.inl hd
      · exact Or.inr hd
      · -- Only an empty name stands behind the slash, and nothing before it.
        cases hfront : directoryOf fileName.toList ['/'] with
        | nil => exact Or.inl rfl
        | cons c front => simp [hfront] at hd
    have hslash : '/' :: joinChars ['/'] (([] : Place).map String.toList) = ['/'] := rfl
    rw [hfrom, hslash]
    rcases hdirectory with hd | hd <;> rw [hd] <;> rfl
  · rw [cons_joinChars (by simp), List.concat_eq_append, routeOf_slashed hfile (hnames name (by simp))]
    unfold withoutFile
    simp [eq_comm]

/-- The last index in the path of a file where the routes root stands, whole names only. -/
def rootIndex? (marker file : String) : Option Nat :=
  searchBack (plainMarker marker) (normalChars file.toList) (normalChars file.toList).length

/-- **The route of a file is made of the components that lie behind the last run of those of the marker.**
    The marker has components, and the name of the file no slash.  Where there is no such run, the file
    has no route, or all of its components stand in for the ones behind it, with a warning and one
    fallback that is counted; the name of the file is left out in either case.  The search from the end of
    the path finds the index of this run, and it finds nothing only if the marker stands nowhere with
    whole names. -/
theorem route_components {marker fileName : String} (hmarker : components (normal marker) ≠ [])
    (hfile : '/' ∉ fileName.toList) (file : String) (j : Journal) :
    (components (normal marker) <:+: components (normal file) →
      ∃ rest, LiesBehind (components (normal marker)) (components (normal file)) rest) ∧
    (∀ rest, LiesBehind (components (normal marker)) (components (normal file)) rest →
      ∀ strict, (route marker fileName strict file).run.run j =
        (.ok (withoutFile fileName rest).text, j)) ∧
    (¬ components (normal marker) <:+: components (normal file) →
      (route marker fileName true file).run.run j = (.error (.scan (.outsideRoot file marker)), j) ∧
      (route marker fileName false file).run.run j =
        (.ok (withoutFile fileName (components (normal file))).text,
          (j.write .warning ("Routes root '" ++ marker ++ "' not found in " ++ file ++
            "; using the full path")).count fun m => m.countFallback "routes_root_missing" file)) ∧
    belowRoot? (plainMarker marker) (normalChars file.toList) = (rootIndex? marker file).map
      (fun i => (normalChars file.toList).drop (i + (plainMarker marker).length)) ∧
    (∀ i, rootIndex? marker file = some i ↔ MarkerAt (plainMarker marker) (normalChars file.toList) i ∧
      ∀ k, MarkerAt (plainMarker marker) (normalChars file.toList) k → k ≤ i) ∧
    (rootIndex? marker file = none ↔
      ∀ k, ¬ MarkerAt (plainMarker marker) (normalChars file.toList) k) := by
  have hm : plainMarker marker ≠ [] := by
    obtain ⟨c, rest, hcons, -⟩ := exists_plainMarker_eq_cons hmarker
    exact hcons ▸ List.cons_ne_nil c rest
  have hnames : ∀ name ∈ components (normal file), '/' ∉ name.toList :=
    fun name hn => ((fromRoot_normalChars file).1 name hn).no_slash
  refine ⟨exists_liesBehind, fun rest hrest strict => ?_, fun hrun => ⟨?_, ?_⟩,
    belowRoot?_eq_searchBack hm, fun i => searchBack_eq_some_iff hm, searchBack_eq_none_iff hm⟩
  · have hroute : routeOf fileName (slashed (rest.map String.toList)) = (withoutFile fileName rest).text := by
      obtain ⟨top, htop⟩ := hrest.found
      have hslash : ∀ name ∈ rest, '/' ∉ name.toList := fun name hn => hnames name (by simp [htop, hn])
      exact routeOf_eq hfile hslash (fromRoot_slashed _)
    unfold route
    simp only [belowRoot?_behind hmarker hrest, hroute]
    rfl
  · unfold route
    simp only [belowRoot?_none hmarker hrun]
    rfl
  · unfold route
    simp only [belowRoot?_none hmarker hrun, routeOf_eq hfile hnames (fromRoot_normalChars file).2]
    rfl

/-- A part of a component is not the routes root, and of two routes roots the last one counts. -/
theorem route_components_twice :
    (components (normal "src/routes") ≠ [] ∧ '/' ∉ "+server.ts".toList) ∧
    LiesBehind (components (normal "src/routes"))
      (components (normal "src/routes/a/src/routes/[id]/routes-old/+server.ts"))
      ["[id]", "routes-old", "+server.ts"] ∧
    (route "src/routes" "+server.ts" true "src/routes/a/src/routes/[id]/routes-old/+server.ts").run.run
      {} = (.ok "/[id]/routes-old", {}) ∧
    ¬ components (normal "src/routes") <:+: components (normal "src/routes-old/+server.ts") ∧
    (route "src/routes" "+server.ts" true "src/routes-old/+server.ts").run.run {} =
      (.error (.scan (.outsideRoot "src/routes-old/+server.ts" "src/routes")), {}) := by
  have hmarker : components (normal "src/routes") = ["src", "routes"] := by decide +kernel
  have hplace : components (normal "src/routes/a/src/routes/[id]/routes-old/+server.ts") =
      ["src", "routes", "a"] ++ ["src", "routes"] ++ ["[id]", "routes-old", "+server.ts"] := by
    decide +kernel
  have hsome : components (normal "src/routes") ≠ [] := hmarker ▸ List.cons_ne_nil _ _
  have hfile : '/' ∉ "+server.ts".toList := by decide +kernel
  have hbehind : LiesBehind (components (normal "src/routes"))
      (components (normal "src/routes/a/src/routes/[id]/routes-old/+server.ts"))
      ["[id]", "routes-old", "+server.ts"] := by
    rw [hmarker, hplace]
    exact LiesBehind.of_notMem (by decide) _
  have hnot : ¬ components (normal "src/routes") <:+: components (normal "src/routes-old/+server.ts") := by
    decide +kernel
  obtain ⟨-, hroute, -⟩ :=
    route_components hsome hfile "src/routes/a/src/routes/[id]/routes-old/+server.ts" {}
  obtain ⟨-, -, houtside, -⟩ := route_components hsome hfile "src/routes-old/+server.ts" {}
  exact ⟨⟨hsome, hfile⟩, hbehind, hroute _ hbehind true, hnot, (houtside hnot).1⟩

end RouteAtlas.Location
