/-
  RouteAtlas: the templates of a route, by recursion on its segments.

  * `LeavesOut segments kept`: optional segments may be left out, and all others stand in their order;
    `mem_choices_iff` says that these are the choices, and `exists_choices_eq` which one comes last;
  * `expanded` takes choices from a stack, and lists the template of a choice as soon as it is complete,
    unless it is there already; `expanded_eq` is what it lists from any stack on;
  * `ofSegments_inj`: the text of a template determines its segments, as far as the number of the empty
    ones is known;
  * `templates_recursive`: the templates are the choices, each once.
-/
import RouteAtlas.Proofs.Location.Shape

namespace RouteAtlas.Template

open RouteAtlas.Text

/-! ## Each once -/

/-- What was seen before is left out, and of what is left each text stays at its first place. -/
theorem firstPlaces_eq : ∀ seen texts : List String,
    firstPlaces seen texts = (texts.filter fun t => !seen.contains t).eraseDups
  | _, [] => rfl
  | seen, t :: texts => by
    rw [firstPlaces, List.filter_cons]
    by_cases ht : seen.contains t = true
    · rw [if_pos ht, if_neg (by simpa using ht), firstPlaces_eq seen texts]
    · have hrest : (texts.filter fun u => !(t :: seen).contains u) =
          (texts.filter fun u => !seen.contains u).filter fun u => !u == t := by
        simp [List.filter_filter, beq_eq_decide]
      rw [if_neg ht, if_pos (by simpa using ht), firstPlaces_eq (t :: seen) texts, hrest,
        List.eraseDups_cons]

theorem not_mem_of_mem_firstPlaces : ∀ {seen texts : List String} {t : String},
    t ∈ firstPlaces seen texts → t ∉ seen
  | seen, first :: texts, t, h => by
    rw [firstPlaces] at h
    split at h
    · exact not_mem_of_mem_firstPlaces h
    · rename_i hfirst
      rcases List.mem_cons.1 h with rfl | h
      · simpa using hfirst
      · exact fun hmem => not_mem_of_mem_firstPlaces h (List.mem_cons_of_mem _ hmem)

theorem nodup_firstPlaces : ∀ seen texts : List String, (firstPlaces seen texts).Nodup
  | _, [] => List.nodup_nil
  | seen, t :: texts => by
    rw [firstPlaces]
    split
    · exact nodup_firstPlaces seen texts
    · exact List.nodup_cons.2
        ⟨fun h => not_mem_of_mem_firstPlaces h (List.mem_cons_self ..), nodup_firstPlaces _ texts⟩

/-- Where no text stands twice, all of them stay. -/
theorem firstPlaces_of_nodup : ∀ {seen texts : List String}, texts.Nodup → (∀ t ∈ texts, t ∉ seen) →
    firstPlaces seen texts = texts
  | _, [], _, _ => rfl
  | seen, t :: texts, hnodup, h => by
    obtain ⟨ht, hrest⟩ := List.nodup_cons.1 hnodup
    obtain ⟨hfirst, hothers⟩ := List.forall_mem_cons.1 h
    rw [firstPlaces, if_neg (by simpa using hfirst), firstPlaces_of_nodup hrest]
    intro u hu
    rw [List.mem_cons, not_or]
    exact ⟨fun he => ht (he ▸ hu), hothers u hu⟩

theorem templates_eq (route : String) :
    templates route = firstPlaces [] ((choices (segmentsOf route)).map ofSegments) := by
  rw [templates, enumerate_eq_choices]

/-! ## What a choice keeps -/

/-- Whether a segment may be left out. -/
def Segment.isOptional : Segment → Bool
  | .optional _ => true
  | .literal _ | .required _ => false

/-- Optional segments may be left out; all others are kept, in their order. -/
inductive LeavesOut : List Segment → List Segment → Prop where
  | nil : LeavesOut [] []
  | keep (s : Segment) {segments kept : List Segment} : LeavesOut segments kept →
      LeavesOut (s :: segments) (s :: kept)
  | leave (name : String) {segments kept : List Segment} : LeavesOut segments kept →
      LeavesOut (.optional name :: segments) kept

/-- A segment that is kept in front of the choices from those behind it. -/
theorem map_shown_mem_choices (s : Segment) {segments : List Segment} {chosen : List String}
    (h : chosen ∈ choices segments) : s.shown :: chosen ∈ choices (s :: segments) := by
  cases s with
  | literal text => exact List.mem_map_of_mem h
  | required name => exact List.mem_map_of_mem h
  | optional name => exact List.mem_append_right _ (List.mem_map_of_mem h)

/-- **A choice shows what is kept where optional segments are left out.** -/
theorem mem_choices_iff {segments : List Segment} {chosen : List String} :
    chosen ∈ choices segments ↔ ∃ kept, LeavesOut segments kept ∧ chosen = kept.map Segment.shown := by
  constructor
  · intro h
    induction segments generalizing chosen with
    | nil => exact ⟨[], .nil, List.mem_singleton.1 h⟩
    | cons s segments ih =>
      have hkept : ∀ {more}, more ∈ choices segments →
          ∃ kept, LeavesOut (s :: segments) kept ∧ s.shown :: more = kept.map Segment.shown := by
        intro more hmore
        obtain ⟨kept, hleaves, rfl⟩ := ih hmore
        exact ⟨s :: kept, .keep s hleaves, rfl⟩
      cases s with
      | literal text =>
        obtain ⟨more, hmore, rfl⟩ := List.mem_map.1 h
        exact hkept hmore
      | required name =>
        obtain ⟨more, hmore, rfl⟩ := List.mem_map.1 h
        exact hkept hmore
      | optional name =>
        rcases List.mem_append.1 h with h | h
        · obtain ⟨kept, hleaves, rfl⟩ := ih h
          exact ⟨kept, .leave name hleaves, rfl⟩
        · obtain ⟨more, hmore, rfl⟩ := List.mem_map.1 h
          exact hkept hmore
  · rintro ⟨kept, hleaves, rfl⟩
    induction hleaves with
    | nil => exact List.mem_singleton_self _
    | keep s _ ih => exact map_shown_mem_choices s ih
    | leave name _ ih => exact List.mem_append_left _ ih

/-- The first choice leaves all optional segments out. -/
theorem head?_choices : ∀ segments : List Segment,
    (choices segments).head? = some ((segments.filter fun s => !s.isOptional).map Segment.shown)
  | [] => rfl
  | .literal text :: segments => by
    rw [choices, List.head?_map, head?_choices segments]
    rfl
  | .required name :: segments => by
    rw [choices, List.head?_map, head?_choices segments]
    rfl
  | .optional name :: segments => by
    rw [choices, List.head?_append, head?_choices segments]
    rfl

/-- The last choice leaves nothing out, and all others have fewer segments. -/
theorem exists_choices_eq : ∀ segments : List Segment, ∃ front : List (List String),
    choices segments = front ++ [segments.map Segment.shown] ∧
      ∀ chosen ∈ front, chosen.length < segments.length
  | [] => ⟨[], rfl, nofun⟩
  | s :: segments => by
    obtain ⟨front, hfront, hless⟩ := exists_choices_eq segments
    have hmore : ∀ {text : String}, ∀ chosen ∈ front.map (text :: ·), chosen.length < segments.length + 1 := by
      intro text chosen hchosen
      obtain ⟨more, hmore, rfl⟩ := List.mem_map.1 hchosen
      exact Nat.succ_lt_succ (hless more hmore)
    cases s with
    | literal text => exact ⟨front.map (text :: ·), by simp [choices, hfront, Segment.shown], hmore⟩
    | required name =>
      exact ⟨front.map (placeholder name :: ·), by simp [choices, hfront, Segment.shown], hmore⟩
    | optional name =>
      refine ⟨choices segments ++ front.map (placeholder name :: ·),
        by simp [choices, hfront, Segment.shown], List.forall_mem_append.2 ⟨fun chosen hchosen => ?_, hmore⟩⟩
      have hle := (sublist_of_mem_choices hchosen).length_le
      rw [List.length_map] at hle
      exact Nat.lt_succ_of_le hle

/-! ## What a choice does not decide on -/

/-- The names of the optional segments. -/
def optionalNames (segments : List Segment) : List String :=
  segments.filterMap fun
    | .optional name => some name
    | .literal _ | .required _ => none

/-- A text that no optional segment is shown as stands in all choices equally often. -/
theorem count_of_mem_choices {t : String} :
    ∀ {segments : List Segment}, (∀ name ∈ optionalNames segments, placeholder name ≠ t) →
      ∀ {chosen : List String}, chosen ∈ choices segments →
        chosen.count t = ((segments.filter fun s => !s.isOptional).map Segment.shown).count t
  | [], _, chosen, hchosen => by
    rw [List.mem_singleton.1 hchosen]
    rfl
  | .literal text :: segments, h, chosen, hchosen => by
    obtain ⟨more, hmore, rfl⟩ := List.mem_map.1 hchosen
    have ih := @count_of_mem_choices t segments h _ hmore
    simp [List.count_cons, ih, Segment.isOptional, Segment.shown]
  | .required name :: segments, h, chosen, hchosen => by
    obtain ⟨more, hmore, rfl⟩ := List.mem_map.1 hchosen
    have ih := @count_of_mem_choices t segments h _ hmore
    simp [List.count_cons, ih, Segment.isOptional, Segment.shown]
  | .optional name :: segments, h, chosen, hchosen => by
    obtain ⟨hname, hnames⟩ := List.forall_mem_cons.1 h
    have ih := fun {more} => @count_of_mem_choices t segments hnames more
    rcases List.mem_append.1 hchosen with hchosen | hchosen
    · simp [ih hchosen, Segment.isOptional]
    · obtain ⟨more, hmore, rfl⟩ := List.mem_map.1 hchosen
      simp [ih hmore, hname, Segment.isOptional]

theorem placeholder_ne_empty (name : String) : placeholder name ≠ "" := by
  simp [placeholder]

/-! ## Segments of templates -/

/-- A text without slashes is shown without slashes. -/
theorem not_mem_shown {text : String} (h : '/' ∉ text.toList) :
    '/' ∉ (Segment.ofText text).shown.toList := by
  by_cases hempty : text = ""
  · subst hempty
    decide +kernel
  · exact (isSegment_shown ⟨hempty, h⟩).no_slash

/-- No segment of a choice for a route has a slash. -/
theorem not_mem_of_mem_choices {route t : String} {chosen : List String}
    (hchosen : chosen ∈ choices (segmentsOf route)) (ht : t ∈ chosen) : '/' ∉ t.toList := by
  have hshown := (sublist_of_mem_choices hchosen).subset ht
  unfold segmentsOf at hshown
  rw [List.map_map] at hshown
  obtain ⟨text, htext, rfl⟩ := List.mem_map.1 hshown
  exact not_mem_shown (not_mem_of_mem_splitOn htext)

/-- The segments of a template, read off its text. -/
theorem splitOn_ofSegments {l : List String} (h : ∀ t ∈ l, '/' ∉ t.toList) :
    splitOn '/' (ofSegments l) = if l = [] ∨ l = [""] then ["", ""] else l := by
  by_cases hroot : l = [] ∨ l = [""]
  · rw [if_pos hroot]
    rcases hroot with rfl | rfl <;> decide +kernel
  · obtain ⟨hne, hone⟩ := not_or.1 hroot
    have hjoined : joinWith "/" l ≠ "" := by
      rcases l with _ | ⟨t, _ | ⟨next, rest⟩⟩
      · exact absurd rfl hne
      · simpa using hone
      · rw [joinWith_cons_cons]
        simp
    unfold ofSegments
    simp only
    rw [if_neg hroot, if_neg (by simpa using hjoined)]
    exact splitOn_joinWith hne h

/-- **The text of a template determines its segments**, if it is known how many of these are empty. -/
theorem ofSegments_inj {l m : List String} (hl : ∀ t ∈ l, '/' ∉ t.toList)
    (hm : ∀ t ∈ m, '/' ∉ t.toList) (hcount : l.count "" = m.count "")
    (h : ofSegments l = ofSegments m) : l = m := by
  have hsplit := splitOn_ofSegments hl
  rw [h, splitOn_ofSegments hm] at hsplit
  -- The text of no segment, that of an empty one and that of two empty ones is a slash.
  split at hsplit <;> split at hsplit
  · rename_i hm hl
    rcases hl with rfl | rfl <;> rcases hm with rfl | rfl <;> simp_all
  · rename_i hm _
    subst hsplit
    rcases hm with rfl | rfl <;> simp at hcount
  · rename_i _ hl
    subst hsplit
    rcases hl with rfl | rfl <;> simp at hcount
  · exact hsplit.symm

/-- **Choices with the same template are the same.** -/
theorem eq_of_ofSegments_eq {route : String} {chosen other : List String}
    (hchosen : chosen ∈ choices (segmentsOf route)) (hother : other ∈ choices (segmentsOf route))
    (h : ofSegments chosen = ofSegments other) : chosen = other := by
  have hcount := fun {l} => @count_of_mem_choices "" (segmentsOf route)
    (fun name _ => placeholder_ne_empty name) l
  exact ofSegments_inj (fun _ => not_mem_of_mem_choices hchosen) (fun _ => not_mem_of_mem_choices hother)
    ((hcount hchosen).trans (hcount hother).symm) h

/-! ## Choices on a stack -/

/-- Takes choices from a stack.  A complete one is listed as its template, unless this was found before;
    `found` holds, last first, the templates found before. -/
def expanded (found : List String) (stack : List Choice) : List String :=
  match stack with
  | [] => found.reverse
  | ([], chosen) :: rest =>
    if found.contains (ofSegments chosen.reverse) then expanded found rest
    else expanded (ofSegments chosen.reverse :: found) rest
  | (.literal text :: segments, chosen) :: rest =>
    expanded found ((segments, text :: chosen) :: rest)
  | (.required name :: segments, chosen) :: rest =>
    expanded found ((segments, placeholder name :: chosen) :: rest)
  | (.optional name :: segments, chosen) :: rest =>
    expanded found ((segments, chosen) :: (segments, placeholder name :: chosen) :: rest)
termination_by work stack
decreasing_by
  all_goals simp only [work, steps]
  · omega
  · omega
  all_goals
    have := steps_pos segments
    omega

/-- What can be chosen from the segments of the choices on a stack, the top one first. -/
def pending (stack : List Choice) : List (List String) :=
  stack.flatMap fun c => (choices c.1).map (c.2.reverse ++ ·)

theorem pending_nil_cons (chosen : List String) (rest : List Choice) :
    pending (([], chosen) :: rest) = chosen.reverse :: pending rest := by
  simp [pending, choices]

/-- **The stack lists what is pending on it**, behind what was found, each once. -/
theorem expanded_eq (found : List String) (stack : List Choice) :
    expanded found stack = found.reverse ++ firstPlaces found ((pending stack).map ofSegments) := by
  induction found, stack using expanded.induct with
  | case1 found => simp [expanded, pending, firstPlaces]
  | case2 found chosen rest hfound ih =>
    rw [List.unattach_reverse, List.unattach_attach] at hfound
    rw [expanded, if_pos hfound, ih, pending_nil_cons, List.map_cons, firstPlaces, if_pos hfound]
  | case3 found chosen rest hfound ih =>
    rw [List.unattach_reverse, List.unattach_attach] at hfound ih
    rw [expanded, if_neg hfound, ih, pending_nil_cons, List.map_cons, firstPlaces, if_neg hfound]
    simp
  | case4 found text segments chosen rest ih =>
    have hpending : pending ((.literal text :: segments, chosen) :: rest) =
        pending ((segments, text :: chosen) :: rest) := by
      simp [pending, choices, Function.comp_def]
    rw [expanded, ih, hpending]
  | case5 found name segments chosen rest ih =>
    have hpending : pending ((.required name :: segments, chosen) :: rest) =
        pending ((segments, placeholder name :: chosen) :: rest) := by
      simp [pending, choices, Function.comp_def]
    rw [expanded, ih, hpending]
  | case6 found name segments chosen rest ih =>
    have hpending : pending ((.optional name :: segments, chosen) :: rest) =
        pending ((segments, chosen) :: (segments, placeholder name :: chosen) :: rest) := by
      simp [pending, choices, Function.comp_def]
    rw [expanded, ih, hpending]

/-! ## The templates -/

/-- **The templates of a route are the choices from its segments, each once.**  The stack of choices that
    lists them as it goes gives the same as the recursion: the choices without an optional segment in
    front of those with it, each template at its first place.  There are templates, none stands there
    twice, and each one keeps all segments but optional ones in their places; the first one leaves all
    optional segments out, and the last one none. -/
theorem templates_recursive (route : String) :
    templates route = expanded [] [(segmentsOf route, [])] ∧
    templates route = ((choices (segmentsOf route)).map ofSegments).eraseDups ∧
    templates route ≠ [] ∧ (templates route).Nodup ∧
    (∀ url ∈ templates route, ∃ kept, LeavesOut (segmentsOf route) kept ∧
      url = ofSegments (kept.map Segment.shown)) ∧
    (templates route).head? = some (ofSegments
      (((segmentsOf route).filter fun s => !s.isOptional).map Segment.shown)) ∧
    (templates route).getLast? = some (ofSegments ((segmentsOf route).map Segment.shown)) := by
  have honce : templates route = ((choices (segmentsOf route)).map ofSegments).eraseDups := by
    rw [templates_eq, firstPlaces_eq]
    simp
  refine ⟨?_, honce, templates_ne_nil route, ?_, fun url hurl => ?_, ?_, ?_⟩
  · rw [expanded_eq, templates_eq]
    simp [pending]
  · rw [templates_eq]
    exact nodup_firstPlaces _ _
  · obtain ⟨chosen, hchosen, rfl⟩ := exists_choice_of_mem_templates hurl
    obtain ⟨kept, hkept, rfl⟩ := mem_choices_iff.1 hchosen
    exact ⟨kept, hkept, rfl⟩
  · have hhead := head?_choices (segmentsOf route)
    obtain ⟨rest, hrest⟩ := List.head?_eq_some_iff.1 hhead
    rw [honce, hrest, List.map_cons, List.eraseDups_cons]
    rfl
  · obtain ⟨front, hfront, hless⟩ := exists_choices_eq (segmentsOf route)
    -- The template that leaves nothing out is that of no other choice, which would be as long.
    have hnew : ofSegments ((segmentsOf route).map Segment.shown) ∉ front.map ofSegments := by
      intro hmem
      obtain ⟨chosen, hchosen, he⟩ := List.mem_map.1 hmem
      have hall : (segmentsOf route).map Segment.shown ∈ choices (segmentsOf route) := by simp [hfront]
      have hother : chosen ∈ choices (segmentsOf route) := by simp [hfront, hchosen]
      have hlength := hless chosen hchosen
      rw [eq_of_ofSegments_eq hother hall he, List.length_map] at hlength
      exact Nat.lt_irrefl _ hlength
    have hremoved : [ofSegments ((segmentsOf route).map Segment.shown)].removeAll (front.map ofSegments) =
        [ofSegments ((segmentsOf route).map Segment.shown)] := by
      simpa [List.removeAll] using hnew
    rw [honce, hfront, List.map_append, List.map_singleton, List.eraseDups_append, hremoved,
      List.eraseDups_cons, List.getLast?_append]
    rfl

end RouteAtlas.Template
