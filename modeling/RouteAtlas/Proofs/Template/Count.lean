/-
  RouteAtlas: how many templates a route has.

  * `length_choices`: every optional segment doubles the choices;
  * `keeping S segments`: of the optional segments, those with a name in `S` are kept;
    `exists_keeping_eq` says that all choices are of this kind, where the names are different;
  * `nodup_choices`: then the choices are different, too.  A choice that starts with a parameter has it
    once more than the choices behind it, which all have it equally often;
  * `templates_count`: one template for each set of optional segments.
-/
import Mathlib.Data.Finset.Powerset
import RouteAtlas.Proofs.Template.Expansion

namespace RouteAtlas.Template

open RouteAtlas.Text

/-! ## The number of choices -/

theorem length_choices : ∀ segments : List Segment,
    (choices segments).length = 2 ^ (optionalNames segments).length
  | [] => rfl
  | .literal text :: segments => by
    rw [choices, List.length_map, length_choices segments]
    rfl
  | .required name :: segments => by
    rw [choices, List.length_map, length_choices segments]
    rfl
  | .optional name :: segments => by
    rw [choices, List.length_append, List.length_map, length_choices segments, ← Nat.two_mul]
    exact (Nat.pow_succ' ..).symm

theorem placeholder_inj {name other : String} (h : placeholder name = placeholder other) :
    name = other := by
  simpa [placeholder, String.ext_iff] using h

/-- **Choices are different**, if the names of the optional segments are. -/
theorem nodup_choices : ∀ {segments : List Segment}, (optionalNames segments).Nodup →
    (choices segments).Nodup
  | [], _ => List.nodup_singleton _
  | .literal text :: segments, h =>
    (@nodup_choices segments h).map List.cons_injective
  | .required name :: segments, h =>
    (@nodup_choices segments h).map List.cons_injective
  | .optional name :: segments, h => by
    obtain ⟨hname, hnames⟩ := List.nodup_cons.1 h
    have ih := nodup_choices hnames
    refine List.nodup_append.2 ⟨ih, ih.map List.cons_injective, ?_⟩
    rintro chosen hchosen other hother rfl
    obtain ⟨more, hmore, rfl⟩ := List.mem_map.1 hother
    -- No other optional segment is shown as this one.
    have hcount := fun {l} => @count_of_mem_choices (placeholder name) segments
      (fun other hother he => hname (placeholder_inj he ▸ hother)) l
    have htwice := (hcount hchosen).trans (hcount hmore).symm
    rw [List.count_cons_self] at htwice
    exact Nat.succ_ne_self _ htwice

/-! ## A choice for each set of names -/

/-- Whether a segment is kept: an optional one is, if its name is in `S`. -/
def keepsSegment (S : Finset String) : Segment → Bool
  | .optional name => name ∈ S
  | .literal _ | .required _ => true

/-- The segments without the optional ones whose name is not in `S`. -/
def keeping (S : Finset String) (segments : List Segment) : List Segment :=
  segments.filter (keepsSegment S)

theorem leavesOut_keeping (S : Finset String) : ∀ segments : List Segment, LeavesOut segments (keeping S segments)
  | [] => .nil
  | .literal text :: segments => .keep (.literal text) (leavesOut_keeping S segments)
  | .required name :: segments => .keep (.required name) (leavesOut_keeping S segments)
  | .optional name :: segments => by
    have ih := leavesOut_keeping S segments
    by_cases h : name ∈ S
    · have hkept : keeping S (.optional name :: segments) = .optional name :: keeping S segments := by
        simp [keeping, keepsSegment, h]
      exact hkept ▸ .keep _ ih
    · have hleft : keeping S (.optional name :: segments) = keeping S segments := by
        simp [keeping, keepsSegment, h]
      exact hleft ▸ .leave _ ih

/-- A name that no optional segment has makes no difference. -/
theorem keeping_insert {S : Finset String} {name : String} :
    ∀ {segments : List Segment}, name ∉ optionalNames segments →
      keeping (insert name S) segments = keeping S segments
  | [], _ => rfl
  | .literal text :: segments, h =>
    congrArg (Segment.literal text :: ·) (@keeping_insert S name segments h)
  | .required other :: segments, h =>
    congrArg (Segment.required other :: ·) (@keeping_insert S name segments h)
  | .optional other :: segments, h => by
    obtain ⟨hother, hrest⟩ := not_or.1 (mt List.mem_cons.2 h)
    have ih := keeping_insert (S := S) hrest
    unfold keeping at ih ⊢
    simp [List.filter_cons, keepsSegment, Ne.symm hother, ih]

/-- **Every choice keeps a set of names**, if the names of the optional segments are different. -/
theorem exists_keeping_eq : ∀ {segments kept : List Segment}, LeavesOut segments kept →
    (optionalNames segments).Nodup → ∃ S ⊆ (optionalNames segments).toFinset, keeping S segments = kept
  | _, _, .nil, _ => ⟨∅, Finset.empty_subset _, rfl⟩
  | _, _, .keep (.literal text) hleaves, h => by
    obtain ⟨S, hsub, rfl⟩ := exists_keeping_eq hleaves h
    exact ⟨S, hsub, rfl⟩
  | _, _, .keep (.required name) hleaves, h => by
    obtain ⟨S, hsub, rfl⟩ := exists_keeping_eq hleaves h
    exact ⟨S, hsub, rfl⟩
  | _, _, .keep (.optional name) hleaves, h => by
    obtain ⟨hname, hnames⟩ := List.nodup_cons.1 h
    obtain ⟨S, hsub, rfl⟩ := exists_keeping_eq hleaves hnames
    refine ⟨insert name S, ?_, ?_⟩
    · exact (Finset.insert_subset_insert name hsub).trans (List.toFinset_cons).ge
    · have hrest := keeping_insert (S := S) hname
      unfold keeping at hrest ⊢
      rw [List.filter_cons_of_pos (by simp [keepsSegment]), hrest]
  | _, _, .leave name hleaves, h => by
    obtain ⟨hname, hnames⟩ := List.nodup_cons.1 h
    obtain ⟨S, hsub, rfl⟩ := exists_keeping_eq hleaves hnames
    have hnot : name ∉ S := fun hmem => hname (List.mem_toFinset.1 (hsub hmem))
    refine ⟨S, (hsub.trans (Finset.subset_insert name _)).trans (List.toFinset_cons).ge, ?_⟩
    exact List.filter_cons_of_neg (by simp [keepsSegment, hnot])

/-- The template with the optional segments whose name is in `S`. -/
def templateWith (S : Finset String) (segments : List Segment) : String :=
  ofSegments ((keeping S segments).map Segment.shown)

/-! ## The number of templates -/

theorem count_optionalNames (name : String) : ∀ segments : List Segment,
    (optionalNames segments).count name = segments.count (.optional name)
  | [] => rfl
  | .literal text :: segments => by
    rw [List.count_cons_of_ne (by simp), ← count_optionalNames name segments]
    rfl
  | .required other :: segments => by
    rw [List.count_cons_of_ne (by simp), ← count_optionalNames name segments]
    rfl
  | .optional other :: segments => by
    have hcons : optionalNames (.optional other :: segments) = other :: optionalNames segments := rfl
    rw [hcons, List.count_cons, List.count_cons, count_optionalNames name segments]
    simp

/-- With different names, the templates of a route are those of all choices. -/
theorem templates_of_nodup {route : String} (h : (optionalNames (segmentsOf route)).Nodup) :
    templates route = (choices (segmentsOf route)).map ofSegments ∧ (templates route).Nodup := by
  have hnodup : ((choices (segmentsOf route)).map ofSegments).Nodup :=
    (nodup_choices h).map_on fun chosen hchosen other hother he => eq_of_ofSegments_eq hchosen hother he
  have heq : templates route = (choices (segmentsOf route)).map ofSegments := by
    rw [templates_eq, firstPlaces_of_nodup hnodup (fun _ _ => List.not_mem_nil)]
  exact ⟨heq, heq ▸ hnodup⟩

theorem length_templates_of_nodup {route : String} (h : (optionalNames (segmentsOf route)).Nodup) :
    (templates route).length = 2 ^ (optionalNames (segmentsOf route)).length := by
  rw [(templates_of_nodup h).1, List.length_map, length_choices]

/-- **One template for each set of optional segments**, if their names are different. -/
theorem bijOn_templateWith {route : String} (h : (optionalNames (segmentsOf route)).Nodup) :
    Set.BijOn (fun S => templateWith S (segmentsOf route))
      {S | S ⊆ (optionalNames (segmentsOf route)).toFinset} {url | url ∈ templates route} := by
  obtain ⟨heq, hnodup⟩ := templates_of_nodup h
  have hsets : {S | S ⊆ (optionalNames (segmentsOf route)).toFinset} =
      ((optionalNames (segmentsOf route)).toFinset.powerset : Set (Finset String)) := by
    ext S
    exact Finset.mem_powerset.symm
  have hurls : {url | url ∈ templates route} = ((templates route).toFinset : Set String) := by
    ext url
    simp
  have hmaps : Set.MapsTo (fun S => templateWith S (segmentsOf route))
      {S | S ⊆ (optionalNames (segmentsOf route)).toFinset} {url | url ∈ templates route} := by
    intro S _
    change _ ∈ templates route
    rw [heq]
    exact List.mem_map_of_mem (mem_choices_iff.2 ⟨_, leavesOut_keeping S _, rfl⟩)
  have hsurj : Set.SurjOn (fun S => templateWith S (segmentsOf route))
      {S | S ⊆ (optionalNames (segmentsOf route)).toFinset} {url | url ∈ templates route} := by
    intro url hurl
    change url ∈ templates route at hurl
    rw [heq] at hurl
    obtain ⟨chosen, hchosen, rfl⟩ := List.mem_map.1 hurl
    obtain ⟨kept, hleaves, rfl⟩ := mem_choices_iff.1 hchosen
    obtain ⟨S, hsub, rfl⟩ := exists_keeping_eq hleaves h
    exact ⟨S, hsub, rfl⟩
  -- There are as many sets of names as templates, so no two sets have the same template.
  have hcard : (optionalNames (segmentsOf route)).toFinset.powerset.card ≤ (templates route).toFinset.card := by
    rw [Finset.card_powerset, List.toFinset_card_of_nodup h, List.toFinset_card_of_nodup hnodup,
      length_templates_of_nodup h]
  refine ⟨hmaps, ?_, hsurj⟩
  rw [hsets, hurls] at hmaps hsurj
  rw [hsets]
  exact Finset.injOn_of_surjOn_of_card_le _ hmaps hsurj hcard

theorem length_firstPlaces_le : ∀ seen texts : List String, (firstPlaces seen texts).length ≤ texts.length
  | _, [] => Nat.le_refl _
  | seen, t :: texts => by
    rw [firstPlaces]
    split
    · exact Nat.le_succ_of_le (length_firstPlaces_le seen texts)
    · exact Nat.succ_le_succ (length_firstPlaces_le (t :: seen) texts)

/-- **A route with `k` optional segments has `2 ^ k` templates, one for each set of them**, if their names
    are different; it is of no account which of the other segments look the same.  No route has more
    templates or none, and one that has fewer has two optional segments of one name. -/
theorem templates_count (route : String) :
    ((optionalNames (segmentsOf route)).Nodup →
      (templates route).length = 2 ^ (optionalNames (segmentsOf route)).length ∧
      (templates route).Nodup ∧
      Set.BijOn (fun S => templateWith S (segmentsOf route))
        {S | S ⊆ (optionalNames (segmentsOf route)).toFinset} {url | url ∈ templates route}) ∧
    1 ≤ (templates route).length ∧
    (templates route).length ≤ 2 ^ (optionalNames (segmentsOf route)).length ∧
    ((templates route).length < 2 ^ (optionalNames (segmentsOf route)).length →
      ∃ name, 2 ≤ (segmentsOf route).count (.optional name)) := by
  refine ⟨fun h => ⟨length_templates_of_nodup h, (templates_of_nodup h).2, bijOn_templateWith h⟩,
    List.length_pos_iff.2 (templates_ne_nil route), ?_, fun hless => ?_⟩
  · rw [templates_eq, ← length_choices, ← List.length_map ofSegments]
    exact length_firstPlaces_le _ _
  · have hdup : ¬ (optionalNames (segmentsOf route)).Nodup := fun h =>
      Nat.ne_of_lt hless (length_templates_of_nodup h)
    obtain ⟨name, hname⟩ := not_forall.1 (mt List.nodup_iff_count_le_one.2 hdup)
    refine ⟨name, ?_⟩
    rw [← count_optionalNames]
    exact Nat.not_le.1 hname

/-- A literal segment that looks like an optional one leaves the templates apart. -/
theorem templates_count_lookalike :
    (optionalNames (segmentsOf "/[[b]]/\x7bb\x7d/[[c]]/[d]")).Nodup ∧
    (templates "/[[b]]/\x7bb\x7d/[[c]]/[d]").length = 4 ∧
    templates "/[[b]]/\x7bb\x7d/[[c]]/[d]" =
      ["/\x7bb\x7d/\x7bd\x7d", "/\x7bb\x7d/\x7bc\x7d/\x7bd\x7d", "/\x7bb\x7d/\x7bb\x7d/\x7bd\x7d",
        "/\x7bb\x7d/\x7bb\x7d/\x7bc\x7d/\x7bd\x7d"] := by
  have hnames : optionalNames (segmentsOf "/[[b]]/\x7bb\x7d/[[c]]/[d]") = ["b", "c"] := by decide +kernel
  have hnodup : (optionalNames (segmentsOf "/[[b]]/\x7bb\x7d/[[c]]/[d]")).Nodup := by
    rw [hnames]
    decide
  obtain ⟨hcount, -⟩ := (templates_count "/[[b]]/\x7bb\x7d/[[c]]/[d]").1 hnodup
  rw [hnames] at hcount
  exact ⟨hnodup, hcount, by decide +kernel⟩

end RouteAtlas.Template
