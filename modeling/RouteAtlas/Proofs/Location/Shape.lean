/-
  RouteAtlas: the shape of routes and of their templates.

  * `IsRoute path`: a path is a slash and segments with single slashes between them, and no segment is
    empty;
  * `IsTidy path` says the same of the characters of a path that may lack the slash in front.  Normal
    forms are tidy (`isTidy_normalChars`), and what a slash cuts off a tidy path is tidy
    (`IsTidy.cut`); the routes root and the name of the file are cut off at slashes;
  * `isRoute_template`: the templates of a route have the shape of a route;
  * `published_isRoute` is all of this for the route of a file, whatever the markers are.
-/
import RouteAtlas.Proofs.Recording
import RouteAtlas.Proofs.Location
import RouteAtlas.Proofs.Template

namespace RouteAtlas

open RouteAtlas.Text

/-- A segment of a route: not empty, and without a slash. -/
structure IsSegment (segment : String) : Prop where
  ne_empty : segment ≠ ""
  no_slash : '/' ∉ segment.toList

/-- A slash, and segments with single slashes between them. -/
def IsRoute (path : String) : Prop :=
  ∃ segments : Place, (∀ segment ∈ segments, IsSegment segment) ∧ path = segments.text

/-! ## Tidy paths -/

namespace Location

/-- A path with a slash in front. -/
def fromRoot (path : List Char) : List Char :=
  if isRooted path then path else '/' :: path

/-- A path that has the shape of a route, the slash in front apart. -/
def IsTidy (path : List Char) : Prop :=
  ∃ names : List (List Char), (∀ name ∈ names, name ≠ [] ∧ '/' ∉ name) ∧
    fromRoot path = '/' :: joinChars ['/'] names

theorem fromRoot_ne_nil (path : List Char) : fromRoot path ≠ [] := by
  cases path with
  | nil => exact List.cons_ne_nil _ _
  | cons c path =>
    unfold fromRoot
    split <;> exact List.cons_ne_nil _ _

theorem fromRoot_append {front : List Char} (hne : front ≠ []) (back : List Char) :
    fromRoot (front ++ back) = fromRoot front ++ back := by
  obtain ⟨c, front, rfl⟩ := List.exists_cons_of_ne_nil hne
  unfold fromRoot isRooted
  simp only [List.cons_append, List.head?_cons]
  by_cases hc : c = '/' <;> simp [hc]

theorem isTidy_nil : IsTidy [] :=
  ⟨[], by simp, rfl⟩

/-- The names before a slash and those behind it. -/
theorem slashed_cut {names : List (List Char)} (hnames : ∀ name ∈ names, '/' ∉ name)
    {front back : List Char} (h : slashed names = front ++ '/' :: back) :
    ∃ above below, names = above ++ below ∧ front = slashed above ∧ '/' :: back = slashed below := by
  induction names generalizing front with
  | nil => simp at h
  | cons name names ih =>
    obtain ⟨hname, hrest⟩ := List.forall_mem_cons.1 hnames
    cases front with
    | nil => exact ⟨[], name :: names, rfl, rfl, h.symm⟩
    | cons c front =>
      rw [slashed_cons, List.cons_append] at h
      obtain ⟨rfl, hcut⟩ := List.cons.inj h
      -- The slash is not in the name, so it stands behind it.
      obtain ⟨more, rfl, hmore⟩ : ∃ more, front = name ++ more ∧ slashed names = more ++ '/' :: back := by
        rcases List.append_eq_append_iff.1 hcut with ⟨more, rfl, hmore⟩ | ⟨more, rfl, hmore⟩
        · exact ⟨more, rfl, hmore⟩
        · cases more with
          | nil => exact ⟨[], by simp, hmore.symm⟩
          | cons d more =>
            obtain ⟨rfl, -⟩ := List.cons.inj hmore
            simp at hname
      obtain ⟨above, below, rfl, rfl, hbelow⟩ := ih hrest hmore
      exact ⟨name :: above, below, rfl, rfl, hbelow⟩

/-- **What a slash cuts off a tidy path is tidy.** -/
theorem IsTidy.cut {front back : List Char} (h : IsTidy (front ++ '/' :: back)) (hne : front ≠ []) :
    IsTidy front ∧ IsTidy ('/' :: back) := by
  obtain ⟨names, hnames, hpath⟩ := h
  rw [fromRoot_append hne] at hpath
  have hsome : names ≠ [] := by
    rintro rfl
    obtain ⟨c, rest, hc⟩ := List.exists_cons_of_ne_nil (fromRoot_ne_nil front)
    simp [hc, joinChars] at hpath
  rw [cons_joinChars hsome] at hpath
  obtain ⟨above, below, rfl, hfront, hback⟩ := slashed_cut (fun name hn => (hnames name hn).2) hpath.symm
  obtain ⟨habove, hbelow⟩ := List.forall_mem_append.1 hnames
  have habove_ne : above ≠ [] := by
    rintro rfl
    exact fromRoot_ne_nil front hfront
  have hbelow_ne : below ≠ [] := by
    rintro rfl
    cases hback
  exact ⟨⟨above, habove, by rw [hfront, cons_joinChars habove_ne]⟩,
    below, hbelow, by rw [cons_joinChars hbelow_ne, ← hback]; rfl⟩

/-! ## Normal form -/

theorem ne_nil_of_mem_follow {rooted : Bool} {place : List (List Char)} {step name : List Char}
    (hplace : ∀ n ∈ place, n ≠ []) (h : name ∈ follow rooted place step) : name ≠ [] := by
  by_cases hstep : step = []
  · rw [hstep] at h
    exact hplace name h
  · rcases mem_follow h with h | rfl
    · exact hplace name h
    · exact hstep

/-- No name of a place that steps lead to is empty. -/
theorem ne_nil_of_mem_foldl_follow {rooted : Bool} {steps place : List (List Char)} {name : List Char}
    (hplace : ∀ n ∈ place, n ≠ []) (h : name ∈ steps.foldl (follow rooted) place) : name ≠ [] := by
  induction steps generalizing place with
  | nil => exact hplace name h
  | cons step steps ih => exact ih (fun n hn => ne_nil_of_mem_follow hplace hn) h

/-- The names of a path are not empty, and have no slashes. -/
theorem names_tidy (path : List Char) : ∀ name ∈ names path, name ≠ [] ∧ '/' ∉ name := by
  intro name h
  have hmem := List.mem_reverse.1 h
  have hpart := (mem_foldl_follow hmem).resolve_left List.not_mem_nil
  exact ⟨ne_nil_of_mem_foldl_follow (by simp) hmem, not_mem_of_mem_splitFrom (by simp) hpart⟩

theorem isTidy_normalChars (path : List Char) : IsTidy (normalChars path) := by
  unfold normalChars ofNames
  simp only
  have hnames := names_tidy (path.map slash)
  generalize names (path.map slash) = ns at hnames
  split
  · exact ⟨ns, hnames, rfl⟩
  · cases ns with
    | nil => exact ⟨[['.']], by simp, rfl⟩
    | cons name ns =>
      obtain ⟨c, cs, rfl⟩ := List.exists_cons_of_ne_nil (hnames name (List.mem_cons_self ..)).1
      have hc : c ≠ '/' := fun he => (hnames _ (List.mem_cons_self ..)).2 (he ▸ List.mem_cons_self ..)
      obtain ⟨rest, hrest⟩ : ∃ rest, joinChars ['/'] ((c :: cs) :: ns) = c :: rest := by
        cases ns <;> exact ⟨_, rfl⟩
      refine ⟨_, hnames, ?_⟩
      simp [hrest, fromRoot, isRooted, hc]

/-! ## What is cut off -/

/-- What follows a marker is the end of a path, and starts with a slash if with anything. -/
theorem append_of_behind? {marker path rest : List Char} (h : behind? marker path = some rest) :
    isNameEnd rest = true ∧ path = marker ++ rest := by
  obtain ⟨hdrop, hend⟩ := Option.filter_eq_some_iff.1 h
  exact ⟨hend, dropStartChars?_eq_some_iff.1 hdrop⟩

theorem append_of_lastBehind? {marker rest : List Char} :
    ∀ {fresh : Bool} {path : List Char}, lastBehind? marker fresh path = some rest →
      isNameEnd rest = true ∧ ∃ front, path = front ++ marker ++ rest
  | fresh, [], h => by
    rw [lastBehind?] at h
    split at h
    · obtain ⟨hend, hpath⟩ := append_of_behind? h
      exact ⟨hend, [], by simpa using hpath⟩
    · cases h
  | fresh, c :: path, h => by
    rw [lastBehind?, Option.or_eq_some_iff] at h
    rcases h with h | ⟨-, h⟩
    · obtain ⟨hend, front, rfl⟩ := append_of_lastBehind? h
      exact ⟨hend, c :: front, rfl⟩
    · split at h
      · obtain ⟨hend, hpath⟩ := append_of_behind? h
        exact ⟨hend, [], by simpa using hpath⟩
      · cases h

/-- What follows the routes root in a path stands at its end, behind something, and starts with a slash
    if with anything. -/
theorem append_of_belowRoot? {marker path rest : List Char} (h : belowRoot? marker path = some rest) :
    rest = [] ∨ ∃ front back, rest = '/' :: back ∧ front ≠ [] ∧ path = front ++ rest := by
  unfold belowRoot? at h
  split at h
  · split at h
    · exact Or.inl (Option.some.inj h).symm
    · cases h
  · rename_i hmarker
    obtain ⟨hend, front, rfl⟩ := append_of_lastBehind? h
    cases rest with
    | nil => exact Or.inl rfl
    | cons c back =>
      obtain rfl := (isNameEnd_cons c back).1 hend
      exact Or.inr ⟨front ++ marker, back, rfl, by simpa using fun _ => by simpa using hmarker, rfl⟩

theorem IsTidy.behind {marker path rest : List Char} (h : IsTidy path)
    (hrest : belowRoot? marker path = some rest) : IsTidy rest := by
  rcases append_of_belowRoot? hrest with rfl | ⟨front, back, rfl, hne, rfl⟩
  · exact isTidy_nil
  · exact (h.cut hne).2

/-- The directory of a path is empty, the path itself, or what stands before a slash in it. -/
theorem directoryOf_cases (fileName path : List Char) :
    directoryOf fileName path = [] ∨ directoryOf fileName path = path ∨
      path = directoryOf fileName path ++ '/' :: fileName := by
  unfold directoryOf
  split
  · rename_i directory h
    exact Or.inr (Or.inr (dropEndChars?_eq_some_iff.1 h))
  · split
    · exact Or.inl rfl
    · exact Or.inr (Or.inl rfl)

theorem IsTidy.directory {path : List Char} (h : IsTidy path) (fileName : List Char) :
    IsTidy (directoryOf fileName path) := by
  rcases directoryOf_cases fileName path with hd | hd | hd
  · exact hd ▸ isTidy_nil
  · exact hd.symm ▸ h
  · by_cases hne : directoryOf fileName path = []
    · exact hne ▸ isTidy_nil
    · rw [hd] at h
      exact (h.cut hne).1

theorem subset_directoryOf (fileName path : List Char) : directoryOf fileName path ⊆ path := by
  intro c hc
  rcases directoryOf_cases fileName path with hd | hd | hd
  · rw [hd] at hc
    cases hc
  · rwa [hd] at hc
  · rw [hd]
    exact List.mem_append_left _ hc

/-! ## Routes -/

theorem isRoute_routeOf {rest : List Char} (h : IsTidy rest) (fileName : String) :
    IsRoute (routeOf fileName rest) := by
  obtain ⟨names, hnames, hdirectory⟩ := h.directory fileName.toList
  refine ⟨names.map String.ofList, List.forall_mem_map.2 fun name hname => ⟨?_, ?_⟩, ?_⟩
  · simpa using (hnames name hname).1
  · simpa using (hnames name hname).2
  · apply String.toList_inj.1
    have hroute : (routeOf fileName rest).toList = fromRoot (directoryOf fileName.toList rest) := by
      simp [routeOf, fromRoot]
    rw [hroute, hdirectory]
    simp [Place.text, joinWith, Function.comp_def]

theorem not_mem_routeOf {c : Char} (hc : c ≠ '/') {rest : List Char} (h : c ∉ rest) (fileName : String) :
    c ∉ (routeOf fileName rest).toList := by
  have hdirectory : c ∉ directoryOf fileName.toList rest := fun hmem =>
    h (subset_directoryOf _ _ hmem)
  unfold routeOf
  simp only [String.toList_ofList]
  split
  · exact hdirectory
  · exact fun hmem => hdirectory ((List.mem_cons.1 hmem).resolve_left hc)

/-- The route of a file is made of what follows the routes root in its path, or of the whole path. -/
theorem exists_of_route {marker fileName file path : String} {strict : Bool} {j : Journal}
    (h : Recording.result (route marker fileName strict file) j = .ok path) :
    ∃ rest, (belowRoot? (plainMarker marker) (normalChars file.toList) = some rest ∨
      rest = normalChars file.toList) ∧ path = routeOf fileName rest := by
  unfold route at h
  simp only at h
  cases hb : belowRoot? (plainMarker marker) (normalChars file.toList) with
  | some rest =>
    rw [hb] at h
    cases h
    exact ⟨rest, Or.inl rfl, rfl⟩
  | none =>
    rw [hb] at h
    cases strict with
    | true => cases h
    | false =>
      cases h
      exact ⟨_, Or.inr rfl, rfl⟩

/-- Unless it is forbidden that the whole path stands in for the route, every file has a route. -/
theorem exists_route (marker fileName file : String) (j : Journal) :
    ∃ path, Recording.result (route marker fileName false file) j = .ok path := by
  unfold route
  simp only
  cases belowRoot? (plainMarker marker) (normalChars file.toList) <;> exact ⟨_, rfl⟩

end Location

/-! ## Templates -/

namespace Template

/-- Whether a segment is a parameter. -/
def Segment.isDynamic : Segment → Bool
  | .literal _ => false
  | .required _ | .optional _ => true

theorem mem_of_mem_parameterName {inside : List Char} {c : Char}
    (h : c ∈ (parameterName inside).toList) : c ∈ inside := by
  unfold parameterName at h
  rw [String.toList_ofList] at h
  have h := (List.takeWhile_sublist _).subset h
  cases hd : dropStartChars? ['.', '.', '.'] inside with
  | none => simpa [hd] using h
  | some rest =>
    rw [dropStartChars?_eq_some_iff.1 hd]
    exact List.mem_append_right _ (by simpa [hd] using h)

theorem mem_of_mem_between? {opening closing cs inside : List Char}
    (h : between? opening closing cs = some inside) {c : Char} (hc : c ∈ inside) : c ∈ cs := by
  unfold between? at h
  split at h
  · obtain ⟨rest, hrest, hinside⟩ := Option.bind_eq_some_iff.1 h
    rw [dropStartChars?_eq_some_iff.1 hrest, dropEndChars?_eq_some_iff.1 hinside]
    simp [hc]
  · cases h

theorem isSegment_placeholder {name : String} (h : '/' ∉ name.toList) :
    IsSegment (placeholder name) where
  ne_empty he := by simp [placeholder] at he
  no_slash := by simpa [placeholder] using h

/-- What templates show for a segment is a segment. -/
theorem isSegment_shown {segment : String} (h : IsSegment segment) :
    IsSegment (Segment.ofText segment).shown := by
  have hname : ∀ {opening closing inside : List Char},
      between? opening closing segment.toList = some inside →
        IsSegment (placeholder (parameterName inside)) := fun hbetween =>
    isSegment_placeholder fun hmem =>
      h.no_slash (mem_of_mem_between? hbetween (mem_of_mem_parameterName hmem))
  unfold Segment.ofText
  split
  · rename_i inside hbetween
    exact hname hbetween
  · split
    · rename_i inside hbetween
      exact hname hbetween
    · exact h

/-- A segment that is no parameter is shown as it is. -/
theorem shown_of_not_dynamic {segment : String} (h : (Segment.ofText segment).isDynamic = false) :
    (Segment.ofText segment).shown = segment := by
  cases ho : between? ['[', '['] [']', ']'] segment.toList with
  | some inside => simp [Segment.ofText, ho, Segment.isDynamic] at h
  | none =>
    cases hr : between? ['['] [']'] segment.toList with
    | some inside => simp [Segment.ofText, ho, hr, Segment.isDynamic] at h
    | none => simp [Segment.ofText, ho, hr, Segment.shown]

/-- Without parameters there is one choice. -/
theorem choices_of_not_dynamic : ∀ {segments : List Segment}, (∀ s ∈ segments, s.isDynamic = false) →
    choices segments = [segments.map Segment.shown]
  | [], _ => rfl
  | .literal text :: segments, h => by
    rw [choices, choices_of_not_dynamic fun s hs => h s (List.mem_cons_of_mem _ hs)]
    rfl
  | .required name :: segments, h => by cases h _ (List.mem_cons_self ..)
  | .optional name :: segments, h => by cases h _ (List.mem_cons_self ..)

theorem choices_ne_nil : ∀ segments : List Segment, choices segments ≠ []
  | [] => List.cons_ne_nil _ _
  | .literal _ :: segments => by simpa [choices] using choices_ne_nil segments
  | .required _ :: segments => by simpa [choices] using choices_ne_nil segments
  | .optional _ :: segments => by simp [choices, choices_ne_nil segments]

/-- A route has templates. -/
theorem templates_ne_nil (route : String) : templates route ≠ [] := by
  unfold templates
  rw [enumerate_eq_choices]
  obtain ⟨chosen, rest, h⟩ := List.exists_cons_of_ne_nil (choices_ne_nil (segmentsOf route))
  simp [h, firstPlaces]

/-- **The templates of a route have the shape of a route.** -/
theorem isRoute_template {route url : String} (h : IsRoute route) (hurl : url ∈ templates route) :
    IsRoute url := by
  obtain ⟨segments, hsegments, rfl⟩ := h
  obtain ⟨kept, hkept, rfl⟩ := exists_of_mem_templates (fun s hs => (hsegments s hs).no_slash) hurl
  refine ⟨kept, fun segment hmem => ?_, rfl⟩
  obtain ⟨s, hs, rfl⟩ := List.mem_map.1 (hkept.subset hmem)
  exact isSegment_shown (hsegments s hs)

/-- **A route without parameters is its only template.** -/
theorem templates_of_not_dynamic {route : String} (h : IsRoute route)
    (hstatic : ∀ s ∈ segmentsOf route, s.isDynamic = false) : templates route = [route] := by
  obtain ⟨segments, hsegments, rfl⟩ := h
  by_cases hne : segments = []
  · subst hne
    decide +kernel
  · have hshown : (segmentsOf segments.text).map Segment.shown = "" :: segments := by
      have hall : ∀ s ∈ splitOn '/' segments.text, (Segment.ofText s).shown = s := fun s hs =>
        shown_of_not_dynamic (hstatic _ (List.mem_map_of_mem hs))
      rw [← FilePath.splitOn_placeText hne fun s hs => (hsegments s hs).no_slash]
      rw [segmentsOf, List.map_map]
      exact (List.map_congr_left hall).trans (List.map_id _)
    unfold templates
    rw [enumerate_eq_choices, choices_of_not_dynamic hstatic, hshown]
    simp [firstPlaces, ofSegments_cons_empty]

end Template

namespace Location

open RouteAtlas.Recording RouteAtlas.Template

/-! ## Published routes -/

/-- **Every published route and address is well formed.**  Whatever the markers and the path of a file
    are: a file has a route unless the whole path must not stand in for it, and the route is a slash and
    segments with single slashes between them, none of them empty and none with a backslash.  It has
    templates, all of this shape; without parameters it is the only one. -/
theorem published_isRoute (marker fileName file : String) (j : Journal) :
    (∃ path, result (route marker fileName false file) j = .ok path) ∧
    ∀ strict path, result (route marker fileName strict file) j = .ok path →
      IsRoute path ∧ '\\' ∉ path.toList ∧ templates path ≠ [] ∧ (∀ url ∈ templates path, IsRoute url) ∧
        ((∀ s ∈ segmentsOf path, s.isDynamic = false) → templates path = [path]) := by
  refine ⟨exists_route marker fileName file j, fun strict path h => ?_⟩
  obtain ⟨rest, hrest, rfl⟩ := exists_of_route h
  have hnormal := isTidy_normalChars file.toList
  have hbackslash := not_mem_normalChars file.toList
  have htidy : IsTidy rest ∧ '\\' ∉ rest := by
    rcases hrest with hbehind | rfl
    · refine ⟨hnormal.behind hbehind, ?_⟩
      rcases append_of_belowRoot? hbehind with rfl | ⟨front, back, -, -, hpath⟩
      · simp
      · exact fun hmem => hbackslash (hpath ▸ List.mem_append_right _ hmem)
    · exact ⟨hnormal, hbackslash⟩
  have hroute := isRoute_routeOf htidy.1 fileName
  exact ⟨hroute, not_mem_routeOf (by decide) htidy.2 fileName, templates_ne_nil _,
    fun url => isRoute_template hroute, templates_of_not_dynamic hroute⟩

/-- A file below the routes root, with the separators of another system and an optional segment. -/
theorem published_isRoute_optional :
    result (route "src/routes" "+server.ts" true "C:\\app\\src\\routes\\a\\[[b]]\\+server.ts") {} =
      .ok "/a/[[b]]" ∧
    IsRoute "/a/[[b]]" ∧ templates "/a/[[b]]" = ["/a", "/a/\x7bb\x7d"] ∧
    IsRoute "/a" ∧ IsRoute "/a/\x7bb\x7d" := by
  have hroute : result (route "src/routes" "+server.ts" true
      "C:\\app\\src\\routes\\a\\[[b]]\\+server.ts") {} = .ok "/a/[[b]]" := by decide +kernel
  have htemplates : templates "/a/[[b]]" = ["/a", "/a/\x7bb\x7d"] := by decide +kernel
  obtain ⟨-, hall⟩ := published_isRoute "src/routes" "+server.ts"
    "C:\\app\\src\\routes\\a\\[[b]]\\+server.ts" {}
  obtain ⟨hshape, -, -, hurls, -⟩ := hall true _ hroute
  rw [htemplates] at hurls
  exact ⟨hroute, hshape, htemplates, hurls _ (by simp), hurls _ (by simp)⟩

end Location

end RouteAtlas
