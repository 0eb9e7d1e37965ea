/-
  RouteAtlas: building arrays and indexing them.

  The type of an array has brackets at its end, and an index takes brackets off the end of a text.  These
  may be those of the last member of a union, or of what a function returns.

  * `elementOf_arrayOf_iff`: indexing undoes building, unless the element is in parentheses that are not
    those of the array;
  * `TypeTerm` is the outermost structure of a type with its `text`, and `TypeTerm.indexed` is the type of
    its elements: those of an array, the union of those of several arrays, `any` else;
  * `marks t` counts brackets and bars: `marks_union_lt` says that the elements of several arrays have fewer
    than the text with brackets taken off the end, `telling_cut` that the type of nothing else is `any`;
  * `elementOf_text_iff`: an index is right exactly if the type is an array, or no brackets stand at its end
    and it has no elements;
  * `subscript_shown_iff` joins these.
-/
import RouteAtlas.Proofs.Typing.Limit
import RouteAtlas.Proofs.Typing.Waiting

namespace RouteAtlas.Typing

open RouteAtlas.Code RouteAtlas.Text

/-! ## Arrays that are built -/

theorem occursIn_iff {part : List Char} : ∀ {cs : List Char},
    occursIn part cs = true ↔ ∃ front back, cs = front ++ part ++ back
  | [] => by
    rw [occursIn, List.isEmpty_iff]
    constructor
    · rintro rfl
      exact ⟨[], [], rfl⟩
    · rintro ⟨front, back, h⟩
      simp at h
      exact h.2.1
  | c :: cs => by
    rw [occursIn, Bool.or_eq_true, Option.isSome_iff_exists, occursIn_iff]
    constructor
    · rintro (⟨rest, h⟩ | ⟨front, back, rfl⟩)
      · exact ⟨[], rest, dropStartChars?_eq_some_iff.1 h⟩
      · exact ⟨c :: front, back, rfl⟩
    · rintro ⟨front, back, h⟩
      cases front with
      | nil => exact .inl ⟨back, dropStartChars?_eq_some_iff.2 h⟩
      | cons d front => exact .inr ⟨front, back, (List.cons.inj h).2⟩

/-- A text is written with parentheses as an element: it has a bar or an arrow. -/
def Compound (t : String) : Prop :=
  (∃ front back, t = front ++ " | " ++ back) ∨ ∃ front back, t = front ++ "=>" ++ back

/-- A text has parentheses at its ends. -/
def Parenthesized (t : String) : Prop :=
  ∃ inside, t = "(" ++ inside ++ ")"

section
variable {s t inside : String} {c : Char}

theorem occursIn_toList_iff {part : String} :
    occursIn part.toList t.toList = true ↔ ∃ front back, t = front ++ part ++ back := by
  rw [occursIn_iff]
  constructor
  · rintro ⟨front, back, h⟩
    refine ⟨.ofList front, .ofList back, String.toList_inj.1 ?_⟩
    rw [h]
    simp
  · rintro ⟨front, back, rfl⟩
    exact ⟨front.toList, back.toList, by simp⟩

theorem compound_iff :
    (occursIn " | ".toList t.toList || occursIn "=>".toList t.toList) = true ↔ Compound t := by
  rw [Bool.or_eq_true, occursIn_toList_iff, occursIn_toList_iff]
  rfl

theorem arrayOf_of_compound (h : Compound t) : arrayOf t = "(" ++ t ++ ")" ++ "[]" := by
  have hclose : ")[]" = ")" ++ "[]" := rfl
  rw [arrayOf, if_pos (compound_iff.2 h), hclose, String.append_assoc, String.append_assoc,
    String.append_assoc]

theorem arrayOf_of_not_compound (h : ¬ Compound t) : arrayOf t = t ++ "[]" := by
  rw [arrayOf, if_neg fun hoccurs => h (compound_iff.1 hoccurs)]

theorem elementOf_brackets (t : String) : elementOf (t ++ "[]") = unparenthesized t := by
  unfold elementOf
  rw [dropEnd?_eq_some_iff.2 rfl]
  rfl

theorem elementOf_of_not_endsWith (h : endsWith "[]" t = false) : elementOf t = any := by
  unfold elementOf
  cases hcut : dropEnd? "[]" t with
  | none => rfl
  | some rest =>
    rw [endsWith_iff.2 ⟨rest, dropEnd?_eq_some_iff.1 hcut⟩] at h
    cases h

theorem unparenthesized_of (inside : String) : unparenthesized ("(" ++ inside ++ ")") = inside := by
  rcases cutOut_cases "(" ")" ("(" ++ inside ++ ")") with ⟨middle, h, hcut⟩ | ⟨hnone, -⟩
  · exact hcut.trans ((String.append_right_inj _).1 ((String.append_left_inj _).1 h)).symm
  · exact absurd rfl (hnone inside)

theorem unparenthesized_eq_self_iff : unparenthesized t = t ↔ ¬ Parenthesized t := by
  rcases cutOut_cases "(" ")" t with ⟨middle, rfl, -⟩ | ⟨hnone, hcut⟩
  · rw [unparenthesized_of]
    refine iff_of_false (fun h => ?_) fun h => h ⟨middle, rfl⟩
    have := congrArg String.length h
    rw [String.length_append, String.length_append] at this
    have hone : "(".length = 1 := rfl
    omega
  · exact iff_of_true hcut fun ⟨inside, h⟩ => hnone inside h

/-- **Indexing what was built.**  Indexing an array gives its element, unless the element has neither a bar
    nor an arrow and stands in parentheses itself. -/
theorem elementOf_arrayOf_iff (t : String) : elementOf (arrayOf t) = t ↔ Compound t ∨ ¬ Parenthesized t := by
  by_cases h : Compound t
  · rw [arrayOf_of_compound h, elementOf_brackets, unparenthesized_of]
    exact iff_of_true rfl (.inl h)
  · rw [arrayOf_of_not_compound h, elementOf_brackets, unparenthesized_eq_self_iff, or_iff_right h]

end

/-! ## The structure of types -/

/-- The outermost structure of a type. -/
inductive TypeTerm where
  /-- Nothing of it ends with the brackets of an array, unless it is the type `[]`. -/
  | plain (t : String)
  | parenthesized (t : TypeTerm)
  | array (element : TypeTerm)
  /-- A union of two types, with the text of a bar between them. -/
  | either (left : TypeTerm) (bar : String) (right : TypeTerm)
  /-- A union that starts with a bar. -/
  | barred (bar : String) (t : TypeTerm)
  /-- Any other type that ends with a type: of a function, an intersection, a type behind a word. -/
  | behind (front : String) (t : TypeTerm)

namespace TypeTerm

def text : TypeTerm → String
  | plain t => t
  | parenthesized t => "(" ++ t.text ++ ")"
  | array t => t.text ++ "[]"
  | either l bar r => l.text ++ bar ++ r.text
  | barred bar t => bar ++ t.text
  | behind front t => front ++ t.text

/-- A type can stand in front of the brackets of an array. -/
def IsOperand : TypeTerm → Prop
  | plain t => ¬ Parenthesized t
  | parenthesized _ | array _ => True
  | _ => False

def IsArray : TypeTerm → Prop
  | array _ => True
  | _ => False

/-- The characters of `any`, and those that are cut off. -/
def faint : List Char :=
  ['a', 'n', 'y', '(', ')', '[', ']']

/-- A text is told apart from `any`, also with brackets and parentheses cut off. -/
def Telling (t : String) : Prop :=
  ∃ c ∈ t.toList, c ∉ faint

/-- A type is put together as the language does. -/
def Formed : TypeTerm → Prop
  | plain t => t ≠ "" ∧ (t = "[]" ∨ endsWith "[]" t = false)
  | parenthesized t => t.Formed
  | array t => t.Formed ∧ t.IsOperand
  | either l bar r => l.Formed ∧ '|' ∈ bar.toList ∧ r.Formed
  | barred bar t => '|' ∈ bar.toList ∧ t.Formed
  | behind front t => Telling front ∧ t.Formed

/-- The text of a type without parentheses of its own. -/
def bare : TypeTerm → String
  | parenthesized t => t.text
  | t => t.text

/-- The types of the elements, if it is an array or a union of arrays. -/
def elements? : TypeTerm → Option (List String)
  | array t => some [t.bare]
  | parenthesized t | barred _ t => t.elements?
  | either l _ r => l.elements?.bind fun ls => r.elements?.map fun rs => ls ++ rs
  | plain _ | behind _ _ => none

/-- The type of the elements. -/
def indexed (t : TypeTerm) : String :=
  (t.elements?.map union).getD any

/-! ### Arrays -/

section
variable {t l r : TypeTerm} {es : List String}

theorem text_ne_empty : ∀ {t : TypeTerm}, t.Formed → t.text ≠ ""
  | plain _, h => h.1
  | parenthesized t, _ => by simp [text]
  | array t, _ => by simp [text]
  | either l bar r, h => by
    intro hempty
    rw [text, String.append_eq_empty_iff, String.append_eq_empty_iff] at hempty
    exact text_ne_empty h.1 hempty.1.1
  | barred bar t, h => by
    intro hempty
    rw [text, String.append_eq_empty_iff] at hempty
    exact text_ne_empty h.2 hempty.2
  | behind front t, h => by
    intro hempty
    rw [text, String.append_eq_empty_iff] at hempty
    exact text_ne_empty h.2 hempty.2

theorem bare_ne_empty (h : t.Formed) : t.bare ≠ "" := by
  cases t with
  | parenthesized u => exact text_ne_empty (show u.Formed from h)
  | _ => exact text_ne_empty h

/-- What stands in front of the brackets of an array has parentheses at its ends only if it is in
    parentheses. -/
theorem unparenthesized_text (h : t.IsOperand) : unparenthesized t.text = t.bare := by
  cases t with
  | plain p => exact unparenthesized_eq_self_iff.2 h
  | parenthesized u => exact unparenthesized_of u.text
  | array u =>
    refine unparenthesized_eq_self_iff.2 ?_
    rintro ⟨inside, hinside⟩
    have hlast := congrArg (fun s : String => s.toList.reverse.head?) hinside
    simp [text] at hlast
  | _ => exact h.elim

/-- Indexing an array gives its element. -/
theorem elementOf_array (h : (array t).Formed) : elementOf (array t).text = (array t).indexed := by
  rw [text, elementOf_brackets, unparenthesized_text h.2]
  exact (union_single (bare_ne_empty h.1)).symm

/-! ### Counting brackets and bars -/

/-- How many brackets are opened in a text, and how many bars stand in it. -/
def marks (s : String) : Nat :=
  s.toList.count '[' + s.toList.count '|'

theorem marks_append (s s' : String) : marks (s ++ s') = marks s + marks s' := by
  unfold marks
  rw [String.toList_append, List.count_append, List.count_append]
  omega

theorem marks_brackets : marks "[]" = 1 := by decide

theorem marks_bar : marks " | " = 1 := by decide

theorem marks_unparenthesized (s : String) : marks (unparenthesized s) = marks s := by
  have hopen : marks "(" = 0 := by decide
  have hclose : marks ")" = 0 := by decide
  by_cases h : Parenthesized s
  · obtain ⟨inside, rfl⟩ := h
    rw [unparenthesized_of, marks_append, marks_append, hopen, hclose]
    omega
  · rw [unparenthesized_eq_self_iff.2 h]

theorem marks_bare (t : TypeTerm) : marks t.bare = marks t.text := by
  have hopen : marks "(" = 0 := by decide
  have hclose : marks ")" = 0 := by decide
  cases t with
  | parenthesized u =>
    rw [bare, text, marks_append, marks_append, hopen, hclose]
    omega
  | _ => rfl

/-- The marks of several texts, with one more for each. -/
def weight (ts : List String) : Nat :=
  (ts.map fun t => marks t + 1).sum

theorem weight_append (ts us : List String) : weight (ts ++ us) = weight ts + weight us := by
  unfold weight
  rw [List.map_append, List.sum_append]

theorem marks_joinWith_bars : ∀ {ts : List String}, ts ≠ [] → marks (joinWith " | " ts) + 1 = weight ts
  | [t], _ => by simp [weight]
  | t :: next :: ts, _ => by
    have ih := marks_joinWith_bars (List.cons_ne_nil next ts)
    have hsum : weight (t :: next :: ts) = marks t + 1 + weight (next :: ts) := rfl
    rw [joinWith_cons_cons, marks_append, marks_append, marks_bar, hsum]
    omega

theorem weight_le_of_sublist {ts us : List String} (h : ts.Sublist us) : weight ts ≤ weight us :=
  List.Sublist.sum_le_sum (h.map _) fun _ _ => Nat.zero_le _

/-- A union has no more marks than its texts and the bars between them. -/
theorem marks_union_lt {ts : List String} (hne : ts ≠ []) (hwords : ∀ t ∈ ts, t ≠ "") :
    marks (union ts) < weight ts := by
  have hjoined := marks_joinWith_bars (unionMembers_ne_nil ts)
  have hmembers := weight_le_of_sublist (unionMembers_sublist hne hwords)
  rw [← union_eq] at hjoined
  omega

theorem marks_pos_of_bar {bar : String} (h : '|' ∈ bar.toList) : 0 < marks bar := by
  have := List.count_pos_iff.2 h
  unfold marks
  omega

theorem elements_ne_nil : ∀ {t : TypeTerm} {es : List String}, t.Formed → t.elements? = some es →
    es ≠ [] ∧ ∀ e ∈ es, e ≠ ""
  | array t, es, h, hes => by
    cases hes
    exact ⟨List.cons_ne_nil _ _, List.forall_mem_singleton.2 (bare_ne_empty h.1)⟩
  | parenthesized t, _, h, hes => elements_ne_nil (show t.Formed from h) hes
  | barred _ t, _, h, hes => elements_ne_nil (show t.Formed from h.2) hes
  | either l _ r, es, h, hes => by
    obtain ⟨ls, hls, hes⟩ := Option.bind_eq_some_iff.1 hes
    obtain ⟨rs, hrs, rfl⟩ := Option.map_eq_some_iff.1 hes
    obtain ⟨hl, hwordsl⟩ := elements_ne_nil h.1 hls
    obtain ⟨-, hwordsr⟩ := elements_ne_nil h.2.2 hrs
    exact ⟨List.append_ne_nil_of_left_ne_nil hl rs, List.forall_mem_append.2 ⟨hwordsl, hwordsr⟩⟩

/-- Each array of a union has its brackets, and unions have bars. -/
theorem weight_elements : ∀ {t : TypeTerm} {es : List String}, t.Formed → t.elements? = some es →
    weight es ≤ marks t.text
  | array t, es, h, hes => by
    cases hes
    rw [text, marks_append, marks_brackets, ← marks_bare]
    simp [weight]
  | parenthesized t, _, h, hes => by
    rw [text, marks_append, marks_append]
    have := weight_elements (show t.Formed from h) hes
    omega
  | barred bar t, _, h, hes => by
    rw [text, marks_append]
    have := weight_elements (show t.Formed from h.2) hes
    omega
  | either l bar r, es, h, hes => by
    obtain ⟨ls, hls, hes⟩ := Option.bind_eq_some_iff.1 hes
    obtain ⟨rs, hrs, rfl⟩ := Option.map_eq_some_iff.1 hes
    have hl := weight_elements h.1 hls
    have hr := weight_elements h.2.2 hrs
    rw [text, marks_append, marks_append, weight_append]
    omega

/-- A union that starts with a bar or has one between its members has a mark more. -/
theorem weight_elements_lt {bar : String} (h : '|' ∈ bar.toList) {ts : List String} {front back : String}
    (hts : weight ts ≤ marks front + marks back) : weight ts < marks (front ++ bar ++ back) := by
  have hbar := marks_pos_of_bar h
  rw [marks_append, marks_append]
  omega

/-! ### Types that are no arrays -/

theorem mem_unparenthesized {s : String} {c : Char} (h : c ∈ s.toList) (hopen : c ≠ '(') (hclose : c ≠ ')') :
    c ∈ (unparenthesized s).toList := by
  by_cases hs : Parenthesized s
  · obtain ⟨inside, rfl⟩ := hs
    rw [unparenthesized_of]
    simpa [hopen, hclose] using h
  · rwa [unparenthesized_eq_self_iff.2 hs]

/-- A text that is told apart from `any` still is with brackets cut off its end. -/
theorem telling_cut {s : String} (h : Telling (s ++ "[]")) : unparenthesized s ≠ any := by
  obtain ⟨c, hc, hfaint⟩ := h
  have hne : ∀ d ∈ faint, c ≠ d := fun d hd heq => hfaint (heq ▸ hd)
  have hs : c ∈ s.toList := by
    simpa [hne '[' (by decide), hne ']' (by decide)] using hc
  have hcut := mem_unparenthesized hs (hne '(' (by decide)) (hne ')' (by decide))
  have hall : ∀ d ∈ ['a', 'n', 'y'], d ∈ faint := by simp [faint]
  have hany : any.toList = ['a', 'n', 'y'] := rfl
  intro heq
  rw [heq, hany] at hcut
  exact hfaint (hall c hcut)

theorem Telling.append {front : String} (h : Telling front) (s s' : String) : Telling (s ++ front ++ s') := by
  obtain ⟨c, hc, hfaint⟩ := h
  exact ⟨c, by simp [hc], hfaint⟩

theorem telling_of_bar {bar : String} (h : '|' ∈ bar.toList) : Telling bar :=
  ⟨'|', h, by decide⟩

/-- Brackets that are cut off the end of a union do not leave the union of the elements. -/
theorem indexed_ne_of_union (ht : t.Formed) {s bar front back : String} (hbar : '|' ∈ bar.toList)
    (hs : t.text = s ++ "[]") (htext : t.text = front ++ bar ++ back)
    (hweight : ∀ es, t.elements? = some es → weight es ≤ marks front + marks back) :
    unparenthesized s ≠ t.indexed := by
  unfold indexed
  cases hes : t.elements? with
  | none =>
    refine telling_cut ?_
    rw [← hs, htext]
    exact (telling_of_bar hbar).append front back
  | some es =>
    obtain ⟨hne, hwords⟩ := elements_ne_nil ht hes
    have hunion := marks_union_lt hne hwords
    have hlt := weight_elements_lt hbar (hweight es hes)
    rw [← htext, hs, marks_append, marks_brackets] at hlt
    intro heq
    have hmarks : marks (unparenthesized s) = marks (union es) := congrArg marks heq
    rw [marks_unparenthesized] at hmarks
    omega

/-- **Indexing a type.**  An index gives the type of the elements exactly if the type is an array, or if no
    brackets stand at its end and it has no elements of a type that is known. -/
theorem elementOf_text_iff (h : t.Formed) :
    elementOf t.text = t.indexed ↔ t.IsArray ∨ endsWith "[]" t.text = false ∧ t.indexed = any := by
  cases hend : endsWith "[]" t.text with
  | false =>
    rw [elementOf_of_not_endsWith hend, and_iff_right rfl, eq_comm]
    refine (or_iff_right fun harray => ?_).symm
    cases t with
    | array u =>
      rw [text, endsWith_iff.2 ⟨u.text, rfl⟩] at hend
      cases hend
    | _ => exact harray.elim
  | true =>
    obtain ⟨s, hs⟩ := endsWith_iff.1 hend
    rw [or_iff_left fun hfalse => absurd hfalse.1 (by decide)]
    -- What ends with brackets and is no array keeps, with these cut off, more brackets and bars than the type
    -- of its elements has, or a character that `any` has not.
    cases t with
    | array u => exact iff_of_true (elementOf_array h) trivial
    | plain p =>
      have hp : p = "[]" := h.2.resolve_right (by rw [show p = (plain p).text from rfl, hend]; decide)
      subst hp
      exact iff_of_false (by decide) id
    | parenthesized u =>
      have hlast := congrArg (fun s : String => s.toList.reverse.head?) hs
      simp [text] at hlast
    | either l bar r =>
      refine iff_of_false ?_ id
      rw [hs, elementOf_brackets]
      refine indexed_ne_of_union h h.2.1 hs rfl fun es hes => ?_
      obtain ⟨ls, hls, hes⟩ := Option.bind_eq_some_iff.1 hes
      obtain ⟨rs, hrs, rfl⟩ := Option.map_eq_some_iff.1 hes
      rw [weight_append]
      exact Nat.add_le_add (weight_elements h.1 hls) (weight_elements h.2.2 hrs)
    | barred bar u =>
      refine iff_of_false ?_ id
      have htext : (barred bar u).text = "" ++ bar ++ u.text := by rw [String.empty_append]; rfl
      rw [hs, elementOf_brackets]
      refine indexed_ne_of_union h h.1 hs htext fun es hes => ?_
      have hu : u.elements? = some es := hes
      exact (weight_elements h.2 hu).trans (Nat.le_add_left ..)
    | behind front u =>
      refine iff_of_false ?_ id
      rw [hs, elementOf_brackets]
      refine telling_cut ?_
      rw [← hs]
      have := h.1.append "" u.text
      rwa [String.empty_append] at this

end

end TypeTerm

/-! ## Expressions -/

/-- An expression is another one in parentheses, one inside another; comments can stand with it. -/
inductive InParentheses (a : Node) : Node → Prop
  | bare : InParentheses a a
  | parenthesized {n e : Node} (hkind : n.kind = .parenthesized) (hfirst : n.operands.head? = some e)
      (he : InParentheses a e) : InParentheses a n

section
variable {scope : Scope} {limit : Nat} {resolving : List String} {n object a : Node} {type : String}

theorem infer_subscript (hkind : n.kind = .subscript) (hobject : n.field? .object = some object)
    (htype : infer scope limit resolving object = some type) :
    infer scope (limit + 1) resolving n = some (elementOf type) := by
  simp only [infer, typeOf, hkind, inferField, hobject, htype, Option.map_some]

/-- The type of an array without spread elements. -/
theorem infer_array {typed : Node → String} (hkind : a.kind = .array) (hne : a.operands ≠ [])
    (helements : ∀ e ∈ a.operands, e.kind ≠ .spread ∧ infer scope limit resolving e = some (typed e)) :
    infer scope (limit + 1) resolving a = some (arrayOf (union (a.operands.map typed))) := by
  have hall : elements a = a.operands :=
    List.filter_eq_self.2 fun e he => by simpa using (helements e he).1
  obtain ⟨e, es, hes⟩ := List.exists_cons_of_ne_nil hne
  have htypes := mapM_eq_map fun e he => (helements e he).2
  simp only [infer, typeOf, hkind, arrayType, hall]
  rw [htypes, hes]
  rfl

/-- Parentheses have the type of what stands in them, unless a comment stands first in some of them. -/
theorem infer_inParentheses (ha : a.kind.isWrapper = false) (hcomment : a.isComment = false)
    (htype : infer scope limit resolving a = some type) (h : InParentheses a n) :
    ∃ more, n.unwrap = a ∧ infer scope (limit + more) resolving n = some type ∨
      n.unwrap ≠ a ∧ infer scope (limit + more) resolving n = some any := by
  induction h with
  | bare => exact ⟨0, .inl ⟨Node.unwrap_of_not_isWrapper ha, htype⟩⟩
  | @parenthesized n e hkind hfirst _ ih =>
    have hwrapper : n.kind.isWrapper = true := by rw [hkind]; rfl
    rcases head?_operands hfirst with hread | ⟨-, c, hread, hc⟩
    · obtain ⟨more, hmore⟩ := ih
      refine ⟨more + 1, ?_⟩
      have hinfer : infer scope (limit + more + 1) resolving n = infer scope (limit + more) resolving e := by
        simp only [infer, typeOf, hkind, inferFirst, hread]
      rw [Node.unwrap_of_head hwrapper hread, ← Nat.add_assoc, hinfer]
      exact hmore
    · have hckind : c.kind = .comment := by simpa [Node.isComment] using hc
      refine ⟨2, .inr ⟨?_, ?_⟩⟩
      · rw [Node.unwrap_of_head hwrapper hread, Node.unwrap_of_not_isWrapper (by rw [hckind]; rfl)]
        rintro rfl
        rw [hc] at hcomment
        cases hcomment
      · have hany : infer scope (limit + 1) resolving c = some any := infer_comment hc
        show typeOf (infer scope (limit + 1)) resolving scope n = _
        simp only [typeOf, hkind, inferFirst, hread, hany]

/-- **Building arrays and indexing them.**  An index into an array without spread elements, in any nesting
    of parentheses, has a type where the elements have one, and the same at each limit that is high enough.
    It is the union of their types exactly if that has a bar or an arrow or no parentheses at its ends; where
    a comment stands first in parentheses, exactly if that is `any`.  An index into an expression of any type
    has the type of its elements exactly if the type is an array, or no brackets stand at its end and nothing
    is known of elements of it. -/
theorem subscript_shown_iff (scope : Scope) (limit : Nat) (resolving : List String) :
    (∀ (n object a : Node) (typed : Node → String), n.kind = .subscript → n.field? .object = some object →
      InParentheses a object → a.kind = .array → a.operands ≠ [] →
      (∀ e ∈ a.operands, e.kind ≠ .spread ∧ infer scope limit resolving e = some (typed e)) →
      ∃ shown, (∃ more, infer scope (limit + more) resolving n = some shown) ∧
        (∀ limit' type, infer scope limit' resolving n = some type → type = shown) ∧
        (shown = union (a.operands.map typed) ↔
          object.unwrap = a ∧
            (Compound (union (a.operands.map typed)) ∨ ¬ Parenthesized (union (a.operands.map typed))) ∨
          object.unwrap ≠ a ∧ union (a.operands.map typed) = any)) ∧
    ∀ (n object : Node) (t : TypeTerm), n.kind = .subscript → n.field? .object = some object → t.Formed →
      infer scope limit resolving object = some t.text →
      (infer scope (limit + 1) resolving n = some t.indexed ↔
        t.IsArray ∨ endsWith "[]" t.text = false ∧ t.indexed = any) := by
  refine ⟨fun n object a typed hkind hobject hin harray hne helements => ?_,
    fun n object t hkind hobject ht htype => ?_⟩
  · have hwrapper : a.kind.isWrapper = false := by rw [harray]; rfl
    have hcomment : a.isComment = false := by simp [Node.isComment, harray]
    have hany : elementOf any = any := by decide
    have hlimit : ∀ more, limit + 1 + more + 1 = limit + (more + 2) := fun more => by omega
    obtain ⟨more, ⟨hread, htype⟩ | ⟨hread, htype⟩⟩ :=
      infer_inParentheses hwrapper hcomment (infer_array harray hne helements) hin
    · have hshown := infer_subscript hkind hobject htype
      rw [hlimit] at hshown
      refine ⟨_, ⟨more + 2, hshown⟩, fun _ _ h => infer_unique h hshown, ?_⟩
      have hother : ∀ p : Prop, ¬ (object.unwrap ≠ a ∧ p) := fun _ h => h.1 hread
      rw [elementOf_arrayOf_iff, and_iff_right hread, or_iff_left (hother _)]
    · have hshown := infer_subscript hkind hobject htype
      rw [hany, hlimit] at hshown
      refine ⟨_, ⟨more + 2, hshown⟩, fun _ _ h => infer_unique h hshown, ?_⟩
      rw [or_iff_right fun h => hread h.1, and_iff_right hread, eq_comm]
  · rw [infer_subscript hkind hobject htype, Option.some_inj, TypeTerm.elementOf_text_iff ht]

end

/-- A scope with a union of arrays, and an intersection in parentheses. -/
def listedScope : Scope :=
  [("lists", .annotated "string[] | number[]"), ("one", .annotated "(A & B)")]

/-- The index `lists[0]`. -/
def listsIndexed : Node :=
  .planted .subscript none "lists[0]" [.planted .identifier (some .object) "lists" []]

/-- The index `([one])[0]`. -/
def oneIndexed : Node :=
  .planted .subscript none "([one])[0]" [.planted .parenthesized (some .object) "([one])" [
    .planted .array none "[one]" [.planted .identifier none "one" []]]]

/-- Of a union of arrays the last brackets are cut off, and of an element its parentheses. -/
theorem subscript_shown_iff_lists :
    infer listedScope 2 [] listsIndexed = some "string[] | number" ∧
    infer listedScope 2 [] listsIndexed ≠ some "string | number" ∧
    infer listedScope 4 [] oneIndexed = some "A & B" ∧ "A & B" ≠ union ["(A & B)"] := by
  have hplain : ∀ p : String, unparenthesized p = p → ¬ Parenthesized p := fun _ =>
    unparenthesized_eq_self_iff.1
  have hlists := (subscript_shown_iff listedScope 1 []).2 listsIndexed
    (.planted .identifier (some .object) "lists" [])
    (.either (.array (.plain "string")) " | " (.array (.plain "number"))) rfl rfl
    ⟨⟨⟨by decide, .inr (by decide)⟩, hplain _ (by decide)⟩, by decide,
      ⟨by decide, .inr (by decide)⟩, hplain _ (by decide)⟩ (by decide +kernel)
  obtain ⟨shown, -, hunique, hone⟩ := (subscript_shown_iff listedScope 1 []).1 oneIndexed
    (.planted .parenthesized (some .object) "([one])" [
      .planted .array none "[one]" [.planted .identifier none "one" []]])
    (.planted .array none "[one]" [.planted .identifier none "one" []]) (fun _ => "(A & B)") rfl rfl
    (.parenthesized rfl rfl .bare) rfl (by decide) (by decide +kernel)
  have hshown : infer listedScope 4 [] oneIndexed = some "A & B" := by decide +kernel
  obtain rfl := hunique 4 _ hshown
  refine ⟨by decide +kernel, fun h => ?_, hshown, fun h => ?_⟩
  · rcases hlists.1 h with harray | ⟨hend, -⟩
    · exact harray
    · exact absurd hend (by decide +kernel)
  · rcases hone.1 h with ⟨-, hcompound | hparenthesized⟩ | ⟨-, hany⟩
    · exact absurd (compound_iff.2 hcompound) (by decide +kernel)
    · exact hparenthesized ⟨"A & B", by decide +kernel⟩
    · exact absurd hany (by decide +kernel)

end RouteAtlas.Typing
