/-
  RouteAtlas: names in brackets, and the parameters that templates make of them.

  * `IsBracketed segment`: a segment is one name between brackets, or between two of them; `EndsInBrackets`
    says no more than that it starts and ends with a bracket;
  * `isDynamic_ofText_iff`: a segment is read as a parameter by its ends alone;
  * `exists_shown_of_isBracketed`: the parameter of a bracketed name has a clean name;
  * `exists_of_mem_template`: the segments of a template are segments of the route, as templates show them;
  * `clean_templates_iff`: what a template shows is clean exactly if the segments of the route that start
    and end with a bracket are bracketed names.
-/
import RouteAtlas.Proofs.Template.Expansion

namespace RouteAtlas.Template

open RouteAtlas.Text

/-! ## Brackets -/

/-- There is no bracket in a text. -/
def HasNoBracket (cs : List Char) : Prop :=
  '[' ∉ cs ∧ ']' ∉ cs

/-- A name as it stands between brackets; dots in front of it and a matcher behind it are left aside. -/
structure IsName (inside : List Char) : Prop where
  no_bracket : HasNoBracket inside
  name_ne_empty : parameterName inside ≠ ""

/-- A segment is a single name in brackets. -/
inductive IsBracketed (segment : String) : Prop where
  | single {inside : List Char} : IsName inside → segment.toList = ['['] ++ inside ++ [']'] →
      IsBracketed segment
  | double {inside : List Char} : IsName inside → segment.toList = ['[', '['] ++ inside ++ [']', ']'] →
      IsBracketed segment

/-- A segment starts and ends with a bracket, and there is something between the two. -/
def EndsInBrackets (segment : String) : Prop :=
  ∃ inside, inside ≠ [] ∧ segment.toList = ['['] ++ inside ++ [']']

/-- What stands between two marks is not empty. -/
theorem between?_eq_some_iff {opening closing cs inside : List Char} :
    between? opening closing cs = some inside ↔ inside ≠ [] ∧ cs = opening ++ inside ++ closing := by
  unfold between?
  constructor
  · intro h
    split at h
    · rename_i hlength
      obtain ⟨rest, hrest, hinside⟩ := Option.bind_eq_some_iff.1 h
      rw [dropStartChars?_eq_some_iff.1 hrest, dropEndChars?_eq_some_iff.1 hinside] at hlength ⊢
      refine ⟨?_, (List.append_assoc ..).symm⟩
      rintro rfl
      simp at hlength
    · cases h
  · rintro ⟨hne, rfl⟩
    have hpos := List.length_pos_iff.2 hne
    rw [if_pos (by simp only [List.length_append]; omega)]
    exact Option.bind_eq_some_iff.2 ⟨inside ++ closing, dropStartChars?_eq_some_iff.2 (List.append_assoc ..),
      dropEndChars?_eq_some_iff.2 rfl⟩

theorem between?_eq_none_iff {opening closing cs : List Char} :
    between? opening closing cs = none ↔ ∀ inside, inside ≠ [] → cs ≠ opening ++ inside ++ closing := by
  rw [Option.eq_none_iff_forall_ne_some]
  simp only [ne_eq, between?_eq_some_iff, not_and]

variable {segment : String} {inside : List Char}

/-- What stands between two pairs of brackets stands between the outer ones. -/
theorem inner_brackets (inside : List Char) :
    ['[', '['] ++ inside ++ [']', ']'] = ['['] ++ (['['] ++ inside ++ [']']) ++ [']'] := by
  simp

/-- **A segment is a parameter exactly if it starts and ends with a bracket.** -/
theorem isDynamic_ofText_iff : (Segment.ofText segment).isDynamic = true ↔ EndsInBrackets segment := by
  unfold Segment.ofText
  cases hdouble : between? ['[', '['] [']', ']'] segment.toList with
  | some inside =>
    obtain ⟨-, hsegment⟩ := between?_eq_some_iff.1 hdouble
    exact iff_of_true rfl ⟨_, by simp, hsegment.trans (inner_brackets inside)⟩
  | none =>
    cases hsingle : between? ['['] [']'] segment.toList with
    | some inside => exact iff_of_true rfl ⟨inside, between?_eq_some_iff.1 hsingle⟩
    | none =>
      refine iff_of_false Bool.false_ne_true ?_
      rintro ⟨inside, hne, hsegment⟩
      exact between?_eq_none_iff.1 hsingle inside hne hsegment

/-- How a segment is shown: as it is written, or as a parameter. -/
def IsShownAs (segment t : String) : Prop :=
  (¬ EndsInBrackets segment ∧ Segment.ofText segment = .literal segment ∧ t = segment) ∨
    (EndsInBrackets segment ∧ ∃ name, t = placeholder name ∧
      (Segment.ofText segment = .required name ∨ Segment.ofText segment = .optional name))

/-- **A segment that starts and ends with a bracket is shown as a parameter, and any other one as it is.** -/
theorem isShownAs_shown (segment : String) : IsShownAs segment (Segment.ofText segment).shown := by
  have hdynamic : (Segment.ofText segment).isDynamic = true ↔ EndsInBrackets segment := isDynamic_ofText_iff
  cases hs : Segment.ofText segment with
  | literal text =>
    rw [hs] at hdynamic
    have hnot : (Segment.ofText segment).isDynamic = false := by rw [hs]; rfl
    have hshown := shown_of_not_dynamic hnot
    rw [hs] at hshown
    obtain rfl : text = segment := hshown
    exact Or.inl ⟨mt hdynamic.2 Bool.false_ne_true, hs, rfl⟩
  | required name =>
    rw [hs] at hdynamic
    exact Or.inr ⟨hdynamic.1 rfl, name, rfl, Or.inl hs⟩
  | optional name =>
    rw [hs] at hdynamic
    exact Or.inr ⟨hdynamic.1 rfl, name, rfl, Or.inr hs⟩

/-- A segment is no literal exactly if it starts and ends with a bracket. -/
theorem ofText_ne_literal_iff : Segment.ofText segment ≠ .literal segment ↔ EndsInBrackets segment := by
  rcases isShownAs_shown segment with ⟨hnot, hs, -⟩ | ⟨hends, name, -, hs⟩
  · exact iff_of_false (not_not.2 hs) hnot
  · refine iff_of_true ?_ hends
    rcases hs with hs | hs <;> simp [hs]

theorem IsName.ne_nil (h : IsName inside) : inside ≠ [] := by
  rintro rfl
  exact h.name_ne_empty (by decide +kernel)

theorem IsName.parameterName (h : IsName inside) : HasNoBracket (Template.parameterName inside).toList :=
  ⟨fun hmem => h.no_bracket.1 (mem_of_mem_parameterName hmem),
    fun hmem => h.no_bracket.2 (mem_of_mem_parameterName hmem)⟩

/-- **The parameter of a bracketed name has a name without brackets.** -/
theorem exists_shown_of_isBracketed (h : IsBracketed segment) :
    ∃ name, (Segment.ofText segment).shown = placeholder name ∧ HasNoBracket name.toList := by
  cases h with
  | @single inside hname hsegment =>
    have hsingle := between?_eq_some_iff.2 ⟨hname.ne_nil, hsegment⟩
    have hdouble : between? ['[', '['] [']', ']'] segment.toList = none := by
      refine between?_eq_none_iff.2 fun other _ he => ?_
      -- The second bracket would stand in the name.
      rw [hsegment, inner_brackets] at he
      have hother : inside = ['['] ++ other ++ [']'] := List.append_cancel_left (List.append_cancel_right he)
      exact hname.no_bracket.1 (by simp [hother])
    exact ⟨Template.parameterName inside, by simp [Segment.ofText, hdouble, hsingle, Segment.shown],
      hname.parameterName⟩
  | @double inside hname hsegment =>
    have hdouble := between?_eq_some_iff.2 ⟨hname.ne_nil, hsegment⟩
    exact ⟨Template.parameterName inside, by simp [Segment.ofText, hdouble, Segment.shown],
      hname.parameterName⟩

/-! ## Templates -/

/-- **The segments of a template are segments of its route**, as templates show them. -/
theorem exists_of_mem_template {route url t : String} (hroute : "" ∈ splitOn '/' route)
    (hurl : url ∈ templates route) (ht : t ∈ splitOn '/' url) :
    ∃ s ∈ splitOn '/' route, t = (Segment.ofText s).shown := by
  obtain ⟨chosen, hchosen, rfl⟩ := exists_choice_of_mem_templates hurl
  rw [splitOn_ofSegments fun t ht => not_mem_of_mem_choices hchosen ht] at ht
  split at ht
  · -- The template of the root has nothing but empty segments, and the route starts with one.
    have hempty : (Segment.ofText "").shown = "" := by decide +kernel
    obtain rfl : t = "" := by simpa using ht
    exact ⟨"", hroute, hempty.symm⟩
  · have hshown := (sublist_of_mem_choices hchosen).subset ht
    unfold segmentsOf at hshown
    rw [List.map_map] at hshown
    obtain ⟨s, hs, rfl⟩ := List.mem_map.1 hshown
    exact ⟨s, hs, rfl⟩

/-- A segment of a template is clean: a literal segment of the route as it stands there, or a parameter
    whose name has no bracket. -/
def IsCleanIn (route t : String) : Prop :=
  (t ∈ splitOn '/' route ∧ Segment.ofText t = .literal t) ∨
    ∃ name, t = placeholder name ∧ HasNoBracket name.toList

/-- The templates of a route show clean segments only, and no segment of the route becomes a parameter but
    for bracketed names. -/
structure HasCleanTemplates (route : String) : Prop where
  shown : ∀ url ∈ templates route, ∀ t ∈ splitOn '/' url, IsCleanIn route t
  parameters : ∀ s ∈ splitOn '/' route, Segment.ofText s ≠ .literal s → IsBracketed s

/-- A route that starts with a slash has an empty segment in front. -/
theorem mem_splitOn_of_slash {route : String} {cs : List Char} (h : route.toList = '/' :: cs) :
    "" ∈ splitOn '/' route := by
  rw [splitOn_of_sep_cons h]
  exact List.mem_cons_self ..

/-- **Where brackets stand around single names only, templates are clean**, and nowhere else. -/
theorem hasCleanTemplates_iff {route : String} (hroute : "" ∈ splitOn '/' route) :
    HasCleanTemplates route ↔ ∀ s ∈ splitOn '/' route, EndsInBrackets s → IsBracketed s := by
  constructor
  · exact fun h s hs hends => h.parameters s hs (ofText_ne_literal_iff.2 hends)
  · refine fun h => ⟨fun url hurl t ht => ?_, fun s hs hne => h s hs (ofText_ne_literal_iff.1 hne)⟩
    obtain ⟨s, hs, rfl⟩ := exists_of_mem_template hroute hurl ht
    rcases isShownAs_shown s with ⟨-, hliteral, hshown⟩ | ⟨hends, -⟩
    · rw [hshown]
      exact Or.inl ⟨hs, hliteral⟩
    · exact Or.inr (exists_shown_of_isBracketed (h s hs hends))

open Recording Location

/-- **When the parameters of templates are clean names.**  Every segment of every template of the route of a
    file is a segment of the route as it is shown: as it is written, or as a parameter where it starts and
    ends with a bracket.  The templates are clean exactly if every segment of the route that starts and ends
    with a bracket is a single name in brackets. -/
theorem clean_templates_iff {marker fileName file path : String} {strict : Bool} {j : Journal}
    (h : result (route marker fileName strict file) j = .ok path) :
    (∀ url ∈ templates path, ∀ t ∈ splitOn '/' url, ∃ s ∈ splitOn '/' path, IsShownAs s t) ∧
    (HasCleanTemplates path ↔ ∀ s ∈ splitOn '/' path, EndsInBrackets s → IsBracketed s) := by
  obtain ⟨rest, -, rfl⟩ := exists_of_route h
  have hroute : "" ∈ splitOn '/' (routeOf fileName rest) := by
    obtain ⟨cs, hcs⟩ : ∃ cs, fromRoot (directoryOf fileName.toList rest) = '/' :: cs := by
      cases hd : directoryOf fileName.toList rest with
      | nil => exact ⟨_, rfl⟩
      | cons c cs => by_cases hc : c = '/' <;> simp [fromRoot, isRooted, hc]
    have htext : (routeOf fileName rest).toList = '/' :: cs := by
      rw [← hcs, routeOf, String.toList_ofList]
      rfl
    exact mem_splitOn_of_slash htext
  refine ⟨fun url hurl t ht => ?_, hasCleanTemplates_iff hroute⟩
  obtain ⟨s, hs, rfl⟩ := exists_of_mem_template hroute hurl ht
  exact ⟨s, hs, isShownAs_shown s⟩

/-- Two parameters in one segment become one whose name has brackets; a rest parameter and an optional one
    with a matcher have clean names. -/
theorem clean_templates_iff_mixed :
    result (route "src/routes" "+server.ts" true "/src/routes/[a]-[b]/+server.ts") {} = .ok "/[a]-[b]" ∧
    templates "/[a]-[b]" = ["/\x7ba]-[b\x7d"] ∧ ¬ HasCleanTemplates "/[a]-[b]" ∧
    result (route "src/routes" "+server.ts" true "/src/routes/[[id=int]]/x[y]/[...z]/+server.ts") {} =
      .ok "/[[id=int]]/x[y]/[...z]" ∧
    templates "/[[id=int]]/x[y]/[...z]" = ["/x[y]/\x7bz\x7d", "/\x7bid\x7d/x[y]/\x7bz\x7d"] ∧
    HasCleanTemplates "/[[id=int]]/x[y]/[...z]" := by
  have hmixed : result (route "src/routes" "+server.ts" true "/src/routes/[a]-[b]/+server.ts") {} =
      .ok "/[a]-[b]" := by decide +kernel
  have hclean : result (route "src/routes" "+server.ts" true
      "/src/routes/[[id=int]]/x[y]/[...z]/+server.ts") {} = .ok "/[[id=int]]/x[y]/[...z]" := by
    decide +kernel
  have hsegments : splitOn '/' "/[a]-[b]" = ["", "[a]-[b]"] := by decide +kernel
  have hothers : splitOn '/' "/[[id=int]]/x[y]/[...z]" = ["", "[[id=int]]", "x[y]", "[...z]"] := by
    decide +kernel
  refine ⟨hmixed, by decide +kernel, fun h => ?_, hclean, by decide +kernel, ?_⟩
  · have hbracketed := (clean_templates_iff hmixed).2.1 h "[a]-[b]" (by simp [hsegments])
      ⟨"a]-[b".toList, by decide, by decide⟩
    -- The name between the brackets, or between two of them, would have brackets itself.
    cases hbracketed with
    | @single inside hname he =>
      have hinside : inside = "a]-[b".toList :=
        (List.append_cancel_left (List.append_cancel_right (he.symm.trans rfl)))
      exact hname.no_bracket.1 (by simp [hinside])
    | @double inside hname he => simp at he
  · refine (clean_templates_iff hclean).2.2 fun s hs hends => ?_
    obtain ⟨inside, -, he⟩ := hends
    rw [hothers] at hs
    simp only [List.mem_cons, List.not_mem_nil, or_false] at hs
    rcases hs with rfl | rfl | rfl | rfl
    · simp at he
    · exact @IsBracketed.double _ "id=int".toList ⟨⟨by decide, by decide⟩, by decide +kernel⟩ (by decide)
    · simp at he
    · exact @IsBracketed.single _ "...z".toList ⟨⟨by decide, by decide⟩, by decide +kernel⟩ (by decide)

end RouteAtlas.Template
