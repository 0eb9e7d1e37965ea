/-
  RouteAtlas: what the templates of a route are made of.

  * `Segment.shown` is how a template shows a segment that it does not leave out;
  * `sublist_of_mem_choices`: a choice leaves out some of the segments and shows the others in order;
  * `exists_of_mem_templates`: so does a template of the route to a place, with the names of the place.
-/
import RouteAtlas.Proofs.FilePath
import RouteAtlas.Template

namespace RouteAtlas.Template

open RouteAtlas.Text

/-- How templates show a segment. -/
def Segment.shown : Segment → String
  | .literal text => text
  | .required name => placeholder name
  | .optional name => placeholder name

/-- A choice shows some of the segments in order. -/
theorem sublist_of_mem_choices :
    ∀ {segments : List Segment} {chosen : List String}, chosen ∈ choices segments →
      chosen.Sublist (segments.map Segment.shown)
  | [], chosen, h => by
    rw [choices, List.mem_singleton] at h
    simp [h]
  | .literal text :: segments, chosen, h => by
    rw [choices] at h
    obtain ⟨more, hmore, rfl⟩ := List.mem_map.1 h
    exact (sublist_of_mem_choices hmore).cons_cons text
  | .required name :: segments, chosen, h => by
    rw [choices] at h
    obtain ⟨more, hmore, rfl⟩ := List.mem_map.1 h
    exact (sublist_of_mem_choices hmore).cons_cons (placeholder name)
  | .optional name :: segments, chosen, h => by
    rw [choices] at h
    rcases List.mem_append.1 h with h | h
    · exact (sublist_of_mem_choices h).cons (placeholder name)
    · obtain ⟨more, hmore, rfl⟩ := List.mem_map.1 h
      exact (sublist_of_mem_choices hmore).cons_cons (placeholder name)

theorem mem_of_mem_firstPlaces : ∀ {texts seen : List String} {text : String},
    text ∈ firstPlaces seen texts → text ∈ texts
  | first :: texts, seen, text, h => by
    rw [firstPlaces] at h
    split at h
    · exact List.mem_cons_of_mem _ (mem_of_mem_firstPlaces h)
    · exact List.mem_cons.2 ((List.mem_cons.1 h).imp_right mem_of_mem_firstPlaces)

/-- A template of a route is a choice from its segments. -/
theorem exists_choice_of_mem_templates {route url : String} (h : url ∈ templates route) :
    ∃ chosen ∈ choices (segmentsOf route), url = ofSegments chosen := by
  unfold templates at h
  rw [enumerate_eq_choices] at h
  obtain ⟨chosen, hchosen, rfl⟩ := List.mem_map.1 (mem_of_mem_firstPlaces h)
  exact ⟨chosen, hchosen, rfl⟩

/-- Behind an empty segment, segments make the text of a place. -/
theorem ofSegments_cons_empty (kept : List String) : ofSegments ("" :: kept) = Place.text kept := by
  cases kept with
  | nil => rfl
  | cons segment kept =>
    have hjoin : joinWith "/" ("" :: segment :: kept) = Place.text (segment :: kept) := by
      rw [joinWith_cons_cons]
      simp [Place.text]
    unfold ofSegments
    simp only [hjoin]
    rw [if_neg]
    simp [Place.text]

/-- **The templates of the route to a place show nothing but names of the place**, in order. -/
theorem exists_of_mem_templates {place : Place} (h : ∀ name ∈ place, '/' ∉ name.toList) {url : String}
    (hurl : url ∈ templates place.text) :
    ∃ kept : Place, kept.Sublist (place.map fun name => (Segment.ofText name).shown) ∧
      url = kept.text := by
  by_cases hne : place = []
  · subst hne
    have hroot : templates (Place.text []) = ["/"] := by decide +kernel
    rw [hroot, List.mem_singleton] at hurl
    exact ⟨[], List.nil_sublist _, hurl⟩
  · obtain ⟨chosen, hchosen, rfl⟩ := exists_choice_of_mem_templates hurl
    have hfirst : Segment.ofText "" = .literal "" := by decide +kernel
    unfold segmentsOf at hchosen
    rw [FilePath.splitOn_placeText hne h, List.map_cons, hfirst, choices] at hchosen
    obtain ⟨kept, hkept, rfl⟩ := List.mem_map.1 hchosen
    refine ⟨kept, ?_, ofSegments_cons_empty kept⟩
    simpa [Function.comp_def] using sublist_of_mem_choices hkept

end RouteAtlas.Template
