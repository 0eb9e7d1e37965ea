/-
  RouteAtlas: documentation comments and back.

  * `framed front indent eol lines` is a comment of given lines, the way it is usually written: the marks
    stand on lines of their own, and a star and a space in front of each line;
  * `cleanLines_framed`: cleaning drops this frame and the blanks at the ends of the lines, and nothing
    else of them;
  * `tagsFrom_described`: lines in front of a tag open none, and the tag has the lines behind it;
  * `framed_round_trip` joins these: what is written into a comment is what is read from it.
-/
import RouteAtlas.Doc
import RouteAtlas.Proofs.Text.Blank
import RouteAtlas.Proofs.Text.Cut

namespace RouteAtlas.Doc

open RouteAtlas.Text

/-! ## Comments of given lines -/

/-- Blanks on one line. -/
def IsIndent (s : String) : Prop :=
  ∀ c ∈ s.toList, isBlank c = true ∧ c ≠ '\n'

instance (s : String) : Decidable (IsIndent s) :=
  List.decidableBAll _ s.toList

/-- The end of a line, in the form of either system. -/
def IsLineEnd (s : String) : Prop :=
  s = "\n" ∨ s = "\r\n"

/-- A single line, without blanks at its end. -/
structure IsLine (s : String) : Prop where
  no_newline : '\n' ∉ s.toList
  trimmed : trimEnd s = s

instance (s : String) : Decidable (IsLine s) :=
  decidable_of_iff ('\n' ∉ s.toList ∧ trimEnd s = s)
    ⟨fun ⟨hnewline, htrimmed⟩ => ⟨hnewline, htrimmed⟩, fun h => ⟨h.no_newline, h.trimmed⟩⟩

/-- There are no lines, or neither the first nor the last one is blank. -/
structure IsFilled (lines : List String) : Prop where
  first : ∀ l ∈ lines.head?, isBlankLine l.toList = false
  last : ∀ l ∈ lines.getLast?, isBlankLine l.toList = false

/-- A comment of lines, each behind a star and a space. -/
def framed (front indent eol : String) (lines : List String) : String :=
  joinWith eol ((front ++ "/**") :: lines.map (fun l => indent ++ " * " ++ l) ++ [indent ++ " */"])

/-! ## Cleaning -/

/-- What is between the star and the end of a line is the line. -/
theorem ungutter_framed {indent line eol : List Char} (hindent : ∀ c ∈ indent, isBlank c = true)
    (heol : ∀ c ∈ eol, isBlank c = true) :
    ungutter (indent ++ ' ' :: '*' :: ' ' :: line ++ eol) = trimEndChars line := by
  have hfront : ∀ c ∈ indent ++ [' '], isBlank c = true :=
    List.forall_mem_append.2 ⟨hindent, List.forall_mem_singleton.2 isBlank_space⟩
  have hline : indent ++ ' ' :: '*' :: ' ' :: line ++ eol =
      (indent ++ [' ']) ++ ('*' :: ' ' :: line) ++ eol := by simp
  have hstar : trimChars ('*' :: ' ' :: line) =
      if trimEndChars line = [] then ['*'] else '*' :: ' ' :: trimEndChars line := by
    unfold trimChars
    rw [trimStartChars_cons (by decide)]
    exact trimEndChars_append_eq ['*', ' '] line
  unfold ungutter
  rw [hline, trimChars_append hfront heol, hstar]
  by_cases hblank : trimEndChars line = []
  · rw [if_pos hblank, hblank]
    rfl
  · rw [if_neg hblank]
    exact trimEndChars_trimEndChars line

/-- A line of blanks is empty. -/
theorem ungutter_blank {line : List Char} (h : ∀ c ∈ line, isBlank c = true) : ungutter line = [] := by
  have hnone : trimChars line = [] := by
    simpa [trimChars, trimStartChars, trimEndChars] using
      @trimChars_append line [] [] h (by simp)
  unfold ungutter
  rw [hnone]
  rfl

/-- A comment between its marks. -/
theorem unframed_marked {front body : List Char} (hfront : ∀ c ∈ front, isBlank c = true) :
    unframed (front ++ '/' :: '*' :: '*' :: (body ++ ['*', '/'])) = body := by
  have htrim : trimChars (front ++ '/' :: '*' :: '*' :: (body ++ ['*', '/'])) =
      '/' :: '*' :: '*' :: (body ++ ['*', '/']) := by
    unfold trimChars
    rw [trimStartChars_append hfront, trimStartChars_cons (by decide)]
    have hlast : '/' :: '*' :: '*' :: (body ++ ['*', '/']) = '/' :: '*' :: '*' :: (body ++ ['*']) ++ ['/'] := by
      simp
    rw [hlast, trimEndChars_concat (by decide)]
  have hstart : dropStartChars? ['/', '*', '*'] ('/' :: '*' :: '*' :: (body ++ ['*', '/'])) =
      some (body ++ ['*', '/']) := dropStartChars?_eq_some_iff.2 rfl
  have hstop : dropEndChars? ['*', '/'] (body ++ ['*', '/']) = some body :=
    dropEndChars?_eq_some_iff.2 rfl
  unfold unframed
  simp only [htrim, hstart, hstop, Option.getD_some]

/-- What ends lines in front of the newlines between them belongs to the lines. -/
theorem append_flatMap_newline (stop last : List Char) (lines : List (List Char)) :
    (lines ++ [last]).flatMap ((stop ++ ['\n']) ++ ·) =
      stop ++ (lines.map (· ++ stop) ++ [last]).flatMap (['\n'] ++ ·) := by
  induction lines with
  | nil => simp
  | cons line lines ih =>
    rw [List.cons_append, List.flatMap_cons, ih, List.map_cons, List.cons_append, List.flatMap_cons]
    simp

/-- The lines between the marks of a comment. -/
theorem lines_framed {front indent stop : List Char} {lines : List (List Char)}
    (hfront : ∀ c ∈ front, isBlank c = true) (hindent : '\n' ∉ indent) (hstop : '\n' ∉ stop)
    (hlines : ∀ line ∈ lines, '\n' ∉ line) :
    splitChars '\n' (unframed (joinChars (stop ++ ['\n'])
      ((front ++ ['/', '*', '*']) :: lines.map (fun line => indent ++ ' ' :: '*' :: ' ' :: line) ++
        [indent ++ [' ', '*', '/']]))) =
      stop :: lines.map (fun line => indent ++ ' ' :: '*' :: ' ' :: line ++ stop) ++ [indent ++ [' ']] := by
  have hbody : unframed (joinChars (stop ++ ['\n'])
      ((front ++ ['/', '*', '*']) :: lines.map (fun line => indent ++ ' ' :: '*' :: ' ' :: line) ++
        [indent ++ [' ', '*', '/']])) =
      joinChars ['\n'] (stop :: lines.map (fun line => indent ++ ' ' :: '*' :: ' ' :: line ++ stop) ++
        [indent ++ [' ']]) := by
    have hinside := append_flatMap_newline stop (indent ++ [' '])
      (lines.map fun line => indent ++ ' ' :: '*' :: ' ' :: line)
    rw [List.map_map] at hinside
    rw [List.cons_append, joinChars_cons, List.cons_append, joinChars_cons]
    refine Eq.trans (congrArg unframed ?_) ((unframed_marked hfront).trans hinside)
    simp
  rw [hbody, splitChars_joinChars (by simp)]
  simp only [List.forall_mem_append, List.forall_mem_cons, List.forall_mem_map]
  simpa [hstop, hindent] using hlines

/-- Empty lines around lines are left out again. -/
theorem trimLines_surrounded {lines : List (List Char)}
    (hfirst : ∀ l ∈ lines.head?, isBlankLine l = false)
    (hlast : ∀ l ∈ lines.getLast?, isBlankLine l = false) : trimLines ([] :: lines ++ [[]]) = lines := by
  have hempty : isBlankLine [] = true := rfl
  have hstart : ([] :: lines ++ [[]]).dropWhile isBlankLine =
      if lines = [] then [] else lines ++ [[]] := by
    cases lines with
    | nil => rfl
    | cons line lines =>
      rw [List.cons_append, List.dropWhile_cons_of_pos hempty, if_neg (List.cons_ne_nil _ _)]
      exact List.dropWhile_cons_of_neg (by simp [hfirst line rfl])
  unfold trimLines
  rw [hstart]
  by_cases hnone : lines = []
  · rw [if_pos hnone, hnone]
    rfl
  · rw [if_neg hnone]
    show (lines ++ [[]]).rdropWhile isBlankLine = lines
    rw [List.rdropWhile_concat_pos _ _ _ hempty, List.rdropWhile_eq_self_iff]
    exact fun hne => by simp [hlast _ (List.getLast?_eq_some_getLast hne)]

theorem isBlankLine_iff {line : List Char} : isBlankLine line = true ↔ trimEndChars line = [] := by
  rw [trimEndChars_eq_nil_iff, isBlankLine, List.all_eq_true]

theorem isBlankLine_trimEnd (line : List Char) : isBlankLine (trimEndChars line) = isBlankLine line := by
  rw [Bool.eq_iff_iff, isBlankLine_iff, isBlankLine_iff, trimEndChars_trimEndChars]

/-- The end of a line is a newline, behind blanks on the line. -/
theorem IsLineEnd.exists_stop {eol : String} (h : IsLineEnd eol) :
    ∃ stop : List Char, eol.toList = stop ++ ['\n'] ∧ (∀ c ∈ stop, isBlank c = true) ∧ '\n' ∉ stop := by
  rcases h with rfl | rfl
  · exact ⟨[], rfl, by simp, by simp⟩
  · exact ⟨['\r'], rfl, List.forall_mem_singleton.2 rfl, by decide⟩

section
variable {front indent eol : String} (hfront : IsIndent front) (hindent : IsIndent indent)
  (heol : IsLineEnd eol)
include hfront hindent heol

/-- **Cleaning drops the frame of a comment**, and of its lines the blanks at their ends. -/
theorem cleanLines_framed {lines : List String} (hlines : ∀ l ∈ lines, '\n' ∉ l.toList)
    (hfilled : IsFilled lines) : cleanLines (framed front indent eol lines) = lines.map trimEnd := by
  obtain ⟨stop, hstop, hblank, hnewline⟩ := heol.exists_stop
  have hfront_blank : ∀ c ∈ front.toList, isBlank c = true := fun c hc => (hfront c hc).1
  have hindent_blank : ∀ c ∈ indent.toList, isBlank c = true := fun c hc => (hindent c hc).1
  have htext : (framed front indent eol lines).toList = joinChars (stop ++ ['\n'])
      ((front.toList ++ ['/', '*', '*']) ::
        (lines.map String.toList).map (fun line => indent.toList ++ ' ' :: '*' :: ' ' :: line) ++
          [indent.toList ++ [' ', '*', '/']]) := by
    simp [framed, joinWith, hstop, Function.comp_def]
  have hline_chars : ∀ line ∈ lines.map String.toList, '\n' ∉ line := List.forall_mem_map.2 hlines
  have hparts := lines_framed hfront_blank (fun hc => (hindent _ hc).2 rfl) hnewline hline_chars
  have hungutter : ([indent.toList ++ [' ']] : List (List Char)).map ungutter = [[]] := by
    rw [List.map_singleton, ungutter_blank]
    exact List.forall_mem_append.2 ⟨hindent_blank, List.forall_mem_singleton.2 isBlank_space⟩
  unfold cleanLines
  rw [htext, hparts, List.map_append, hungutter, List.map_cons, ungutter_blank hblank, List.map_map,
    List.map_map]
  have hcleaned : lines.map ((ungutter ∘ fun line =>
      indent.toList ++ ' ' :: '*' :: ' ' :: line ++ stop) ∘ String.toList) =
        lines.map fun l => trimEndChars l.toList :=
    List.map_congr_left fun l _ => ungutter_framed hindent_blank hblank
  rw [hcleaned, trimLines_surrounded, List.map_map]
  · rfl
  · rw [List.head?_map]
    rintro l hl
    obtain ⟨line, hline, rfl⟩ := Option.map_eq_some_iff.1 hl
    rw [isBlankLine_trimEnd, hfilled.first line hline]
  · rw [List.getLast?_map]
    rintro l hl
    obtain ⟨line, hline, rfl⟩ := Option.map_eq_some_iff.1 hl
    rw [isBlankLine_trimEnd, hfilled.last line hline]

/-- Lines without blanks at their ends are what they were before they were put into a comment. -/
theorem cleanLines_framed_trimmed {lines : List String} (hlines : ∀ l ∈ lines, IsLine l)
    (hfilled : IsFilled lines) : cleanLines (framed front indent eol lines) = lines := by
  rw [cleanLines_framed hfront hindent heol (fun l hl => (hlines l hl).no_newline) hfilled]
  exact (List.map_congr_left fun l hl => (hlines l hl).trimmed).trans (List.map_id lines)

end

/-! ## Tags -/

/-- The name of a tag. -/
def IsTagName (name : String) : Prop :=
  ∃ c rest, name.toList = c :: rest ∧ isTagStart c = true ∧ ∀ d ∈ rest, (isWord d || d == '-') = true

/-- The line that opens a tag. -/
def tagLine (name first : String) : String :=
  "@" ++ name ++ " " ++ first

theorem IsTagName.not_blank {name : String} (h : IsTagName name) : ∀ c ∈ name.toList, isBlank c = false := by
  obtain ⟨c, rest, hchars, hstart, hrest⟩ := h
  have hword : ∀ d, (isWord d || d == '-') = true → isBlank d = false := by
    intro d hd
    refine Bool.eq_false_iff.2 fun hblank => ?_
    rw [isWord_of_isBlank hblank, Bool.false_or, beq_iff_eq] at hd
    rw [hd] at hblank
    exact absurd hblank (by decide)
  have hfirst : isWord c = true := by
    rcases Bool.or_eq_true_iff.1 hstart with hletter | hscore
    · exact isWord_of_isAlphanum (by simp [Char.isAlphanum, hletter])
    · rw [beq_iff_eq.1 hscore]
      exact isWord_underscore
  rw [hchars]
  exact List.forall_mem_cons.2 ⟨hword c (by simp [hfirst]), fun d hd => hword d (hrest d hd)⟩

/-- A line that opens a tag ends with the name where nothing stands behind it. -/
theorem trimEndChars_tagLine {name : String} (hname : IsTagName name) (first : String) :
    trimEndChars (tagLine name first).toList = '@' :: name.toList ++
      if trimEndChars first.toList = [] then [] else ' ' :: trimEndChars first.toList := by
  have hchars : (tagLine name first).toList = ('@' :: name.toList ++ [' ']) ++ first.toList := by
    simp [tagLine]
  have hfront : trimEndChars ('@' :: name.toList ++ [' ']) = '@' :: name.toList := by
    rw [trimEndChars_append (List.forall_mem_singleton.2 isBlank_space), trimEndChars_of_forall]
    exact List.forall_mem_cons.2 ⟨by decide, hname.not_blank⟩
  rw [hchars, trimEndChars_append_eq, hfront]
  split <;> simp

/-- A line that opens a tag, as it is cleaned, has the name of the tag and the rest behind it. -/
theorem tagStart?_tagLine {name first : String} (hname : IsTagName name) (hfirst : IsLine first) :
    tagStart? (trimEnd (tagLine name first)) = some (name, trimStart first) := by
  have hfirst_trimmed : trimEndChars first.toList = first.toList :=
    String.ofList_injective (hfirst.trimmed.trans String.ofList_toList.symm)
  have hline := trimEndChars_tagLine hname first
  have htrim : trimChars (trimEnd (tagLine name first)).toList = trimEndChars (tagLine name first).toList := by
    unfold trimChars trimEnd
    rw [String.toList_ofList, hline, List.cons_append, trimStartChars_cons (by decide),
      ← List.cons_append, ← hline, trimEndChars_trimEndChars]
  obtain ⟨c, rest, hchars, hstart, hrest⟩ := hname
  have hnewline : '\n' ∉ trimStartChars first.toList := fun hmem =>
    hfirst.no_newline ((List.dropWhile_sublist _).subset hmem)
  -- The space behind the name is no part of it.
  have hspace : isWord ' ' = false := isWord_of_isBlank isBlank_space
  have hbehind : ∀ behind, behind = (if first.toList = [] then [] else ' ' :: first.toList) →
      (rest ++ behind).takeWhile (fun d => isWord d || d == '-') = rest ∧
        trimStartChars ((rest ++ behind).dropWhile fun d => isWord d || d == '-') =
          trimStartChars first.toList := by
    rintro behind rfl
    rw [List.takeWhile_append_of_pos hrest, List.dropWhile_append_of_pos hrest]
    split
    · rename_i hnone
      simp [hnone]
    · rw [List.takeWhile_cons_of_neg (by simp [hspace]), List.dropWhile_cons_of_neg (by simp [hspace])]
      exact ⟨List.append_nil _, trimStartChars_append (List.forall_mem_singleton.2 isBlank_space)⟩
  obtain ⟨htake, hdrop⟩ := hbehind _ rfl
  unfold tagStart?
  rw [htrim, hline, hfirst_trimmed, hchars]
  simp only [List.cons_append, hstart, if_true, htake, hdrop]
  rw [if_neg (by simpa using hnewline), ← hchars, String.ofList_toList]
  rfl

/-- A line that opens no tag belongs to the tag in progress, if there is one. -/
theorem tagsFrom_cons {line : String} (h : tagStart? line = none) (index : Nat)
    (current : Option OpenTag) (lines : List String) : tagsFrom index current (line :: lines) =
      tagsFrom (index + 1) (current.map fun t => { t with parts := line :: t.parts }) lines := by
  cases current <;> simp [tagsFrom, h]

/-- A line that opens a tag starts with what stands behind the name. -/
theorem tagsFrom_opening {line name text : String} (h : tagStart? line = some (name, text)) (index : Nat)
    (lines : List String) :
    tagsFrom index none (line :: lines) = tagsFrom (index + 1) (some ⟨name, [text], index⟩) lines := by
  simp [tagsFrom, h]

/-- Lines that open no tag, in front of others. -/
theorem tagsFrom_described (index : Nat) {described : List String} (lines : List String)
    (h : ∀ l ∈ described, tagStart? l = none) :
    tagsFrom index none (described ++ lines) = tagsFrom (index + described.length) none lines := by
  induction described generalizing index with
  | nil => rfl
  | cons line described ih =>
    obtain ⟨hline, hrest⟩ := List.forall_mem_cons.1 h
    rw [List.cons_append, tagsFrom_cons hline, Option.map_none, ih _ hrest, List.length_cons,
      Nat.add_assoc, Nat.add_comm 1]

/-- Lines that open no tag all belong to the tag in progress. -/
theorem tagsFrom_continued (index : Nat) (t : OpenTag) {lines : List String}
    (h : ∀ l ∈ lines, tagStart? l = none) : tagsFrom index (some t) lines =
      [OpenTag.close { t with parts := lines.reverse ++ t.parts } (index + lines.length - 1)] := by
  induction lines generalizing index t with
  | nil => rfl
  | cons line lines ih =>
    obtain ⟨hline, hrest⟩ := List.forall_mem_cons.1 h
    rw [tagsFrom_cons hline, Option.map_some, ih _ _ hrest, List.length_cons, Nat.add_assoc,
      Nat.add_comm 1, List.reverse_cons, List.append_assoc]
    rfl

/-- The only tag of lines that none of the others opens. -/
theorem tagsOf_described {described continued : List String} {opening name text : String}
    (hdescribed : ∀ l ∈ described, tagStart? l = none) (hopening : tagStart? opening = some (name, text))
    (hcontinued : ∀ l ∈ continued, tagStart? l = none) :
    tagsOf (described ++ opening :: continued) =
      [⟨name, nonempty? (trim (joinWith "\n" (text :: continued))), described.length,
        described.length + continued.length⟩] := by
  unfold tagsOf
  rw [tagsFrom_described 0 _ hdescribed, tagsFrom_opening hopening, tagsFrom_continued _ _ hcontinued]
  simp only [OpenTag.close, List.reverse_append, List.reverse_reverse, List.reverse_singleton,
    List.singleton_append, Nat.zero_add]
  congr 2
  omega

/-! ## What is read -/

/-- What a tag says does not depend on blanks in front of it. -/
theorem trim_joinWith_trimStart (first : String) (rest : List String) :
    trim (joinWith "\n" (trimStart first :: rest)) = trim (joinWith "\n" (first :: rest)) := by
  have hblank : ∀ c ∈ first.toList.takeWhile isBlank, isBlank c = true := fun c hc =>
    List.mem_takeWhile_imp hc
  have hsplit : first.toList = first.toList.takeWhile isBlank ++ trimStartChars first.toList :=
    List.takeWhile_append_dropWhile.symm
  have hjoined : ∀ more, trimChars (trimStartChars first.toList ++ more) = trimChars (first.toList ++ more) := by
    intro more
    unfold trimChars
    conv_rhs => rw [hsplit, List.append_assoc, trimStartChars_append hblank]
  simp only [trim, joinWith, trimStart, List.map_cons, String.toList_ofList, joinChars_cons, hjoined]

/-- The lines of a block outside its only tag are those in front of it. -/
theorem linesOutside_described (text tag : String) (first last : Int) (described continued : List String)
    (opening : String) (comment : Option String) :
    Block.linesOutside ⟨text, first, last, described ++ opening :: continued,
      [⟨tag, comment, described.length, described.length + continued.length⟩]⟩ tag = described := by
  have hbefore : ∀ entry ∈ described.zipIdx, entry.2 < described.length := fun entry h => by
    simpa using List.snd_lt_of_mem_zipIdx h
  have hbehind : ∀ entry ∈ (opening :: continued).zipIdx described.length,
      described.length ≤ entry.2 ∧ entry.2 ≤ described.length + continued.length := fun entry h => by
    have hle := List.le_snd_of_mem_zipIdx h
    have hlt := List.snd_lt_add_of_mem_zipIdx h
    rw [List.length_cons] at hlt
    omega
  unfold Block.linesOutside Block.inTag
  rw [List.zipIdx_append, List.filter_append, Nat.zero_add]
  simp only [List.any_cons, List.any_nil, Bool.or_false, beq_self_eq_true, Bool.true_and]
  rw [List.filter_eq_self.2, List.filter_eq_nil_iff.2, List.append_nil, List.zipIdx_map_fst]
  · intro entry h
    simpa using hbehind entry h
  · intro entry h
    have hlt := hbefore entry h
    simp [Nat.not_le.2 hlt]

section
variable {front indent eol tag first : String} {described continued : List String}

/-- The block of a comment with one tag. -/
theorem ofComment_framed (hfront : IsIndent front) (hindent : IsIndent indent) (heol : IsLineEnd eol)
    (htag : IsTagName tag) (hlines : ∀ l ∈ described ++ first :: continued, IsLine l)
    (hfilled : IsFilled (described ++ tagLine tag first :: continued))
    (hplain : ∀ l ∈ described ++ continued, tagStart? l = none) (text : String)
    (htext : text = framed front indent eol (described ++ tagLine tag first :: continued))
    (startLine endLine : Int) : Block.ofComment text startLine endLine =
      ⟨text, startLine, endLine, described ++ trimEnd (tagLine tag first) :: continued,
        [⟨tag, nonempty? (trim (joinWith "\n" (first :: continued))), described.length,
          described.length + continued.length⟩]⟩ := by
  obtain ⟨hdescribed, hrest⟩ := List.forall_mem_append.1 hlines
  obtain ⟨hfirst, hcontinued⟩ := List.forall_mem_cons.1 hrest
  have hopening : '\n' ∉ (tagLine tag first).toList := by
    have hname : '\n' ∉ tag.toList := fun hmem => absurd (htag.not_blank _ hmem) (by decide)
    simpa [tagLine, hname] using hfirst.no_newline
  have hsingle : ∀ l ∈ described ++ tagLine tag first :: continued, '\n' ∉ l.toList :=
    List.forall_mem_append.2 ⟨fun l hl => (hdescribed l hl).no_newline,
      List.forall_mem_cons.2 ⟨hopening, fun l hl => (hcontinued l hl).no_newline⟩⟩
  have htrimmed : ∀ {ls : List String}, (∀ l ∈ ls, IsLine l) → ls.map trimEnd = ls := fun hls =>
    (List.map_congr_left fun l hl => (hls l hl).trimmed).trans (List.map_id _)
  have hclean : cleanLines text = described ++ trimEnd (tagLine tag first) :: continued := by
    rw [htext, cleanLines_framed hfront hindent heol hsingle hfilled, List.map_append, List.map_cons,
      htrimmed hdescribed, htrimmed hcontinued]
  obtain ⟨hbefore, hbehind⟩ := List.forall_mem_append.1 hplain
  unfold Block.ofComment
  simp only [hclean]
  rw [tagsOf_described hbefore (tagStart?_tagLine htag hfirst) hbehind, trim_joinWith_trimStart]

/-- **What is written into a comment is read from it.**  Lines without blanks at their ends, of which the
    first and the last are not blank, are those of their comment, for every indentation and both ends of
    lines: stars and spaces at the start of a line are the line's.  If one line opens a tag and no other
    line does, then the body is what stands behind the name and on the lines after it, trimmed, and the
    documentation is what stands on the lines before it; there is none where this is blank. -/
theorem framed_round_trip (hfront : IsIndent front) (hindent : IsIndent indent) (heol : IsLineEnd eol) :
    (∀ lines : List String, (∀ l ∈ lines, IsLine l) → IsFilled lines →
      cleanLines (framed front indent eol lines) = lines) ∧
    ∀ (tag first : String) (described continued : List String) (startLine endLine : Int),
      IsTagName tag → (∀ l ∈ described ++ first :: continued, IsLine l) →
      IsFilled (described ++ tagLine tag first :: continued) →
      (∀ l ∈ described ++ continued, tagStart? l = none) →
      let block := Block.ofComment (framed front indent eol (described ++ tagLine tag first :: continued))
        startLine endLine
      bodyType tag [block] = nonempty? (trim (joinWith "\n" (first :: continued))) ∧
        documentation tag [block] = nonempty? (trim (joinWith "\n" described)) := by
  refine ⟨fun lines hlines hfilled => ?_, ?_⟩
  · exact cleanLines_framed_trimmed hfront hindent heol hlines hfilled
  · intro tag first described continued startLine endLine htag hlines hfilled hplain
    simp only [ofComment_framed hfront hindent heol htag hlines hfilled hplain _ rfl]
    refine ⟨?_, ?_⟩
    · simp [bodyType]
    · unfold documentation
      rw [List.map_singleton, Block.textOutside, linesOutside_described]
      by_cases hnone : (trim (joinWith "\n" described)).isEmpty
      · simp [hnone, nonempty?]
      · simp [hnone]

/-- A comment of lines with a bullet and indentation, and one with a body of several lines. -/
theorem framed_round_trip_bullets :
    cleanLines (framed "" "\t" "\r\n" ["* one", "", "  two"]) = ["* one", "", "  two"] ∧
    bodyType "body" [Block.ofComment (framed "" "\t" "\r\n"
        (["Adds a note.", "", "  * now"] ++ tagLine "body" "\x7b" :: ["  title: string", "\x7d"])) 1 8] =
      some "\x7b\n  title: string\n\x7d" ∧
    documentation "body" [Block.ofComment (framed "" "\t" "\r\n"
        (["Adds a note.", "", "  * now"] ++ tagLine "body" "\x7b" :: ["  title: string", "\x7d"])) 1 8] =
      some "Adds a note.\n\n  * now" := by
  have hfront : IsIndent "" := by decide
  have hindent : IsIndent "\t" := by decide
  have htag : IsTagName "body" := ⟨'b', ['o', 'd', 'y'], rfl, rfl, List.all_eq_true.1 rfl⟩
  obtain ⟨hclean, hread⟩ := framed_round_trip hfront hindent (.inr rfl : IsLineEnd "\r\n")
  obtain ⟨hbody, hdocumentation⟩ := hread "body" "\x7b" ["Adds a note.", "", "  * now"]
    ["  title: string", "\x7d"] 1 8 htag (by decide)
    ⟨by rintro _ ⟨⟩; decide, by rintro _ ⟨⟩; decide⟩ (by decide)
  exact ⟨hclean _ (by decide) ⟨by rintro _ ⟨⟩; decide, by rintro _ ⟨⟩; decide⟩,
    hbody.trans (by decide), hdocumentation.trans (by decide)⟩

end

end RouteAtlas.Doc
