/-
  RouteAtlas: the segment in front of the parameters of a route, in all its templates.

  * `ownerOf?_append`: segments that are no parameters are passed over, up to the last one in front of a
    parameter; `isPlaceholder_getD_ownerOf?`: what is found is no parameter;
  * `segmentBeforeParameter_of_splitOn` says both of the text of a template;
  * `StartsWithParameter behind`: where segments are left out, a parameter is still the first one, or none
    is left (`LeavesOut.isDynamic_head`); literal segments in front stay (`LeavesOut.exists_append`);
  * `segmentBeforeParameter_templates`: the segment in front of such segments is the same for all templates
    of the route.
-/
import RouteAtlas.Proofs.Template.Expansion

namespace RouteAtlas.Template

open RouteAtlas.Text

/-! ## The segment in front of a parameter -/

variable {url owner : String} {above behind : List String}

/-- Segments that are no parameters are passed over, in front of one that is none either. -/
theorem ownerOf?_append (h : ∀ s ∈ above ++ [owner], isPlaceholder s = false) (behind : List String) :
    ownerOf? (above ++ owner :: behind) = ownerOf? (owner :: behind) := by
  induction above with
  | nil => rfl
  | cons first above ih =>
    rw [List.cons_append, List.forall_mem_cons] at h
    have hrest := ih h.2
    obtain ⟨next, rest, hnext⟩ : ∃ next rest, above ++ [owner] = next :: rest :=
      List.exists_cons_of_ne_nil (by simp)
    have hlist : above ++ owner :: behind = next :: (rest ++ behind) := by
      rw [← List.singleton_append, ← List.append_assoc, hnext, List.cons_append]
    have hplain : isPlaceholder next = false := h.2 next (by rw [hnext]; exact List.mem_cons_self ..)
    rw [List.cons_append, hlist, ownerOf?, if_neg (by simp [hplain]), ← hlist, hrest]

/-- The segment in front of the first parameter, or the last one where there is no parameter, is none
    itself, unless the first segment is a parameter. -/
theorem isPlaceholder_getD_ownerOf? : ∀ {first : String} (rest : List String), isPlaceholder first = false →
    isPlaceholder ((ownerOf? (first :: rest)).getD ((first :: rest).getLast?.getD "")) = false
  | first, [], h => h
  | first, next :: rest, h => by
    cases hnext : isPlaceholder next with
    | true => simpa [ownerOf?, hnext] using h
    | false =>
      rw [ownerOf?, if_neg (by simp [hnext]), List.getLast?_cons_cons]
      exact isPlaceholder_getD_ownerOf? rest hnext

theorem isPlaceholder_empty : isPlaceholder "" = false := by
  decide

theorem segmentBeforeParameter_eq {first : String} {rest : List String} (hurl : splitOn '/' url = first :: rest)
    (hfirst : isPlaceholder first = false) : segmentBeforeParameter url =
      (ownerOf? (first :: rest)).getD ((first :: rest).getLast?.getD "") := by
  unfold segmentBeforeParameter
  simp [hurl, hfirst]

/-- **The last segment in front of parameters**, which may have other segments behind them. -/
theorem segmentBeforeParameter_of_splitOn (hurl : splitOn '/' url = "" :: (above ++ owner :: behind))
    (hplain : ∀ s ∈ above ++ [owner], isPlaceholder s = false)
    (hbehind : ∀ s ∈ behind.head?, isPlaceholder s = true) : segmentBeforeParameter url = owner := by
  have hfront : ∀ s ∈ ("" :: above) ++ [owner], isPlaceholder s = false :=
    List.forall_mem_cons.2 ⟨isPlaceholder_empty, hplain⟩
  rw [segmentBeforeParameter_eq hurl isPlaceholder_empty, ← List.cons_append, ownerOf?_append hfront]
  cases behind with
  | nil =>
    rw [List.getLast?_concat]
    rfl
  | cons param behind => simp [ownerOf?, hbehind param rfl]

/-- A text with a slash in front has an empty segment there. -/
theorem exists_splitOn_of_startsWith (h : startsWith "/" url = true) :
    ∃ rest, splitOn '/' url = "" :: rest := by
  obtain ⟨cs, hcs⟩ := Option.isSome_iff_exists.1 h
  exact ⟨_, splitOn_of_sep_cons (dropStartChars?_eq_some_iff.1 hcs)⟩

/-! ## What templates leave out -/

theorem isPlaceholder_placeholder (name : String) : isPlaceholder (placeholder name) = true := by
  simp [isPlaceholder, placeholder, startsWith, dropStartChars?]

/-- A parameter is shown as one. -/
theorem Segment.isPlaceholder_shown {s : Segment} (h : s.isDynamic = true) : isPlaceholder s.shown = true := by
  cases s with
  | literal text => cases h
  | required name => exact isPlaceholder_placeholder name
  | optional name => exact isPlaceholder_placeholder name

theorem LeavesOut.sublist {segments kept : List Segment} (h : LeavesOut segments kept) :
    kept.Sublist segments := by
  induction h with
  | nil => exact .slnil
  | keep s _ ih => exact ih.cons_cons s
  | leave name _ ih => exact ih.cons (.optional name)

/-- Literal segments in front of others are kept. -/
theorem LeavesOut.exists_append {front back kept : List Segment} (hfront : ∀ s ∈ front, s.isDynamic = false)
    (h : LeavesOut (front ++ back) kept) : ∃ more, kept = front ++ more ∧ LeavesOut back more := by
  induction front generalizing kept with
  | nil => exact ⟨kept, rfl, h⟩
  | cons s front ih =>
    obtain ⟨hs, hrest⟩ := List.forall_mem_cons.1 hfront
    cases h with
    | keep _ hmore =>
      obtain ⟨more, rfl, hback⟩ := ih hrest hmore
      exact ⟨more, rfl, hback⟩
    | leave name => cases hs

/-- Segments start with a required parameter, or all of them are parameters. -/
inductive StartsWithParameter : Place → Prop where
  | required {segment name : String} (rest : Place) : Segment.ofText segment = .required name →
      StartsWithParameter (segment :: rest)
  | all {segments : Place} : (∀ s ∈ segments, (Segment.ofText s).isDynamic = true) →
      StartsWithParameter segments

/-- **What is left of segments that start with a parameter does so too.** -/
theorem LeavesOut.isDynamic_head {behind : Place} {kept : List Segment} (hbehind : StartsWithParameter behind)
    (h : LeavesOut (behind.map Segment.ofText) kept) : ∀ s ∈ kept.head?, s.isDynamic = true := by
  intro s hs
  cases hbehind with
  | @required segment name rest hsegment =>
    rw [List.map_cons, hsegment] at h
    cases h with
    | keep =>
      obtain rfl : Segment.required name = s := Option.some.inj hs
      rfl
  | all hall =>
    obtain ⟨text, htext, rfl⟩ := List.mem_map.1 (h.sublist.subset (List.mem_of_head? hs))
    exact hall text htext

/-! ## The owner of a route -/

/-- A literal segment that does not look like a parameter of a template. -/
structure IsPlainSegment (segment : String) : Prop where
  literal : (Segment.ofText segment).isDynamic = false
  no_brace : startsWith "\x7b" segment = false

instance (segment : String) : Decidable (IsPlainSegment segment) :=
  decidable_of_iff ((Segment.ofText segment).isDynamic = false ∧ startsWith "\x7b" segment = false)
    ⟨fun ⟨hliteral, hbrace⟩ => ⟨hliteral, hbrace⟩, fun h => ⟨h.literal, h.no_brace⟩⟩

/-- The segments of the templates of a route that starts with literal segments. -/
theorem exists_of_mem_templates_append {front behind : Place} (hne : front ≠ [])
    (hslash : ∀ s ∈ front ++ behind, '/' ∉ s.toList)
    (hliteral : ∀ s ∈ front, (Segment.ofText s).isDynamic = false)
    (hurl : url ∈ templates (Place.text (front ++ behind))) :
    ∃ kept, LeavesOut (behind.map Segment.ofText) kept ∧
      splitOn '/' url = "" :: (front ++ kept.map Segment.shown) := by
  obtain ⟨chosen, hchosen, rfl⟩ := exists_choice_of_mem_templates hurl
  have hslashes := fun t => not_mem_of_mem_choices (t := t) hchosen
  obtain ⟨all, hall, rfl⟩ := mem_choices_iff.1 hchosen
  have hempty : Segment.ofText "" = .literal "" := by decide +kernel
  have hsegments : segmentsOf (Place.text (front ++ behind)) =
      (Segment.literal "" :: front.map Segment.ofText) ++ behind.map Segment.ofText := by
    rw [segmentsOf, FilePath.splitOn_placeText (List.append_ne_nil_of_left_ne_nil hne _) hslash, List.map_cons,
      hempty, List.map_append, List.cons_append]
  rw [hsegments] at hall
  have hfront : ∀ s ∈ Segment.literal "" :: front.map Segment.ofText, s.isDynamic = false :=
    List.forall_mem_cons.2 ⟨rfl, List.forall_mem_map.2 hliteral⟩
  obtain ⟨kept, rfl, hkept⟩ := hall.exists_append hfront
  have hshown : (front.map Segment.ofText).map Segment.shown = front := by
    rw [List.map_map]
    exact (List.map_congr_left fun s hs => shown_of_not_dynamic (hliteral s hs)).trans (List.map_id _)
  refine ⟨kept, hkept, ?_⟩
  rw [splitOn_ofSegments hslashes, List.map_append, List.map_cons, hshown, if_neg]
  · rfl
  · simp [hne]

/-- **All templates of a route have one segment in front of their parameters.**  Where literal segments that
    do not look like parameters are followed by segments that start with a required parameter, or are all
    parameters, there are templates, and for each one the segment before its first parameter is the last of
    the literal ones; it is the last segment where all parameters are left out.  And what is found for a
    text with a slash in front never looks like a parameter. -/
theorem segmentBeforeParameter_templates :
    (∀ (above : Place) (owner : String) (behind : Place),
      (∀ s ∈ above ++ owner :: behind, '/' ∉ s.toList) → (∀ s ∈ above ++ [owner], IsPlainSegment s) →
      StartsWithParameter behind →
      templates (Place.text (above ++ owner :: behind)) ≠ [] ∧
        ∀ url ∈ templates (Place.text (above ++ owner :: behind)), segmentBeforeParameter url = owner) ∧
    ∀ url, startsWith "/" url = true → startsWith "\x7b" (segmentBeforeParameter url) = false := by
  refine ⟨fun above owner behind hslash hplain hbehind => ⟨templates_ne_nil _, fun url hurl => ?_⟩,
    fun url hurl => ?_⟩
  · have hsplit : above ++ owner :: behind = (above ++ [owner]) ++ behind := by simp
    rw [hsplit] at hslash hurl
    obtain ⟨kept, hkept, hurl⟩ := exists_of_mem_templates_append (by simp) hslash
      (fun s hs => (hplain s hs).literal) hurl
    rw [List.append_assoc, List.singleton_append] at hurl
    refine segmentBeforeParameter_of_splitOn hurl (fun s hs => (hplain s hs).no_brace) ?_
    rw [List.head?_map]
    rintro _ hshown
    obtain ⟨s, hs, rfl⟩ := Option.map_eq_some_iff.1 hshown
    exact Segment.isPlaceholder_shown (hkept.isDynamic_head hbehind s hs)
  · obtain ⟨rest, hrest⟩ := exists_splitOn_of_startsWith hurl
    rw [segmentBeforeParameter_eq hrest isPlaceholder_empty]
    exact isPlaceholder_getD_ownerOf? rest isPlaceholder_empty

/-- An optional parameter with a matcher in front of a rest parameter, and literal segments behind a
    required one. -/
theorem segmentBeforeParameter_templates_optional :
    templates "/api/items/[[id=int]]/[[...rest]]" =
      ["/api/items", "/api/items/\x7brest\x7d", "/api/items/\x7bid\x7d", "/api/items/\x7bid\x7d/\x7brest\x7d"] ∧
    (∀ url ∈ templates "/api/items/[[id=int]]/[[...rest]]", segmentBeforeParameter url = "items") ∧
    (∀ url ∈ templates "/items/[id]/tags/[[tag]]", segmentBeforeParameter url = "items") ∧
    startsWith "\x7b" (segmentBeforeParameter "/\x7bid\x7d") = false := by
  obtain ⟨htemplates, hbrace⟩ := segmentBeforeParameter_templates
  have hplain : ∀ s ∈ ["api", "items"], IsPlainSegment s := by decide +kernel
  have hid : Segment.ofText "[id]" = .required "id" := by decide +kernel
  have hall := (htemplates ["api"] "items" ["[[id=int]]", "[[...rest]]"] (by decide) hplain
    (.all (by decide +kernel))).2
  have hrequired := (htemplates [] "items" ["[id]", "tags", "[[tag]]"] (by decide)
    (fun s hs => hplain s (List.mem_cons_of_mem _ hs)) (.required _ hid)).2
  exact ⟨by decide +kernel, hall, hrequired, hbrace _ (by decide)⟩

/-- A literal segment behind an optional parameter is the owner where this is left out. -/
example : (templates "/items/[[id]]/tags").map segmentBeforeParameter = ["tags", "items"] := by
  decide +kernel

end RouteAtlas.Template
