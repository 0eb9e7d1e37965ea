/-
  RouteAtlas: the tags of lines divide these from the first line on that opens a tag.

  * `IsTagLine line` says what a line that opens a tag looks like, `OpensTag line name behind` what it says
    of the tag; `isSome_tagStart?_iff` and `exists_of_tagStart?` join them to the reading of a line;
  * `mem_tagsFrom_iff`: a tag is that of a line that opens one, with the lines behind it up to the next such
    line;
  * `Divides stop start tags`: tags take up all lines between two given ones, without a gap, and
    `divides_tagsFrom` says it of the tags that are read;
  * `tags_partition` joins these: no line of those from the first tag on is left out, and none is in two
    tags.
-/
import Mathlib.Data.List.Chain
import RouteAtlas.Proofs.Doc.Sections

namespace RouteAtlas.Doc

open RouteAtlas.Text

/-! ## Lines that open a tag -/

/-- A line, trimmed, is an at sign and the name of a tag, and there is at most one line of text behind the
    blanks that follow. -/
def IsTagLine (line : String) : Prop :=
  ∃ name gap text : String, IsTagName name ∧ (∀ c ∈ gap.toList, isBlank c = true) ∧ '\n' ∉ text.toList ∧
    trim line = "@" ++ name ++ gap ++ text

/-- Whether a name goes on with a character. -/
def isNamePart (c : Char) : Bool :=
  isWord c || c == '-'

/-- A line opens a tag: trimmed, it is an at sign, the whole name of the tag and what stands behind it. -/
structure OpensTag (line name behind : String) : Prop where
  isName : IsTagName name
  trimmed : trim line = "@" ++ name ++ behind
  whole : ∀ c ∈ behind.toList.head?, isNamePart c = false
  single : '\n' ∉ (trimStart behind).toList

variable {line name text behind : String} {lines rest : List String} {start index : Nat}

theorem isNamePart_of_isBlank {c : Char} (h : isBlank c = true) : isNamePart c = false := by
  rw [isNamePart, isWord_of_isBlank h, Bool.false_or, beq_eq_false_iff_ne]
  rintro rfl
  exact absurd h (by decide)

/-- What is read from a line that is an at sign and something behind it. -/
theorem tagStart?_at {c : Char} {cs : List Char} (h : trimChars line.toList = '@' :: c :: cs)
    (hc : isTagStart c = true) : tagStart? line =
      if '\n' ∈ trimStartChars (cs.dropWhile isNamePart) then none
      else some (.ofList (c :: cs.takeWhile isNamePart), .ofList (trimStartChars (cs.dropWhile isNamePart))) := by
  unfold tagStart?
  rw [h]
  simp only [hc, if_true, List.contains_iff_mem]
  rfl

/-- A line from which a tag is read starts with an at sign and a name. -/
theorem exists_chars_of_tagStart? (h : (tagStart? line).isSome = true) :
    ∃ c cs, trimChars line.toList = '@' :: c :: cs ∧ isTagStart c = true := by
  unfold tagStart? at h
  split at h
  · rename_i c cs hchars
    refine ⟨c, cs, hchars, ?_⟩
    split at h
    · assumption
    · cases h
  · cases h

theorem OpensTag.isTagLine (h : OpensTag line name behind) : IsTagLine line := by
  refine ⟨name, .ofList (behind.toList.takeWhile isBlank), trimStart behind, h.isName, ?_, h.single, ?_⟩
  · rw [String.toList_ofList]
    exact fun c hc => List.mem_takeWhile_imp hc
  · rw [h.trimmed, ← String.toList_inj]
    simp [trimStart, trimStartChars]

/-- **What is read from a line is the whole name of the tag**, and what stands behind it. -/
theorem exists_of_tagStart? (h : tagStart? line = some (name, text)) :
    ∃ behind, OpensTag line name behind ∧ text = trimStart behind := by
  obtain ⟨c, cs, hchars, hc⟩ := exists_chars_of_tagStart? (Option.isSome_of_eq_some h)
  rw [tagStart?_at hchars hc] at h
  split at h
  · cases h
  · rename_i hsingle
    cases h
    refine ⟨.ofList (cs.dropWhile isNamePart), ⟨?_, ?_, ?_, ?_⟩, ?_⟩
    · have hparts : ∀ d ∈ cs.takeWhile isNamePart, isNamePart d = true := fun d => List.mem_takeWhile_imp
      exact ⟨c, _, String.toList_ofList, hc, hparts⟩
    · rw [trim, hchars, ← String.toList_inj]
      simp
    · rw [String.toList_ofList]
      intro d hd
      have hhead := List.head?_dropWhile_not isNamePart cs
      rw [Option.mem_def.1 hd] at hhead
      simpa using hhead
    · simpa [trimStart] using hsingle
    · simp [trimStart]

/-- **A tag is read from the lines that look like it.** -/
theorem isSome_tagStart?_iff : (tagStart? line).isSome = true ↔ IsTagLine line := by
  constructor
  · intro h
    obtain ⟨⟨name, text⟩, hread⟩ := Option.isSome_iff_exists.1 h
    obtain ⟨behind, hopens, -⟩ := exists_of_tagStart? hread
    exact hopens.isTagLine
  · rintro ⟨name, gap, text, ⟨c, cs, hname, hc, hcs⟩, hgap, htext, htrimmed⟩
    have hchars : trimChars line.toList = '@' :: c :: (cs ++ (gap.toList ++ text.toList)) := by
      have htoList := congrArg String.toList htrimmed
      simpa [trim, hname] using htoList
    -- Where the name goes on behind the one that is given, there is no gap, and the text has the rest of it.
    have hsublist : (trimStartChars ((gap.toList ++ text.toList).dropWhile isNamePart)).Sublist text.toList := by
      cases hg : gap.toList with
      | nil => exact (List.dropWhile_sublist _).trans (List.dropWhile_sublist _)
      | cons blank blanks =>
        rw [hg] at hgap
        have hstop : isNamePart blank = false := isNamePart_of_isBlank (hgap blank (List.mem_cons_self ..))
        rw [List.cons_append, List.dropWhile_cons_of_neg (by simp [hstop]), ← List.cons_append,
          trimStartChars_append hgap]
        exact List.dropWhile_sublist _
    have hparts : (cs ++ (gap.toList ++ text.toList)).dropWhile isNamePart =
        (gap.toList ++ text.toList).dropWhile isNamePart := List.dropWhile_append_of_pos hcs
    rw [tagStart?_at hchars hc, hparts, if_neg fun h => htext (hsublist.subset h)]
    rfl

/-- The lines that open no tag do not look like it. -/
theorem isContinued_iff : isContinued line = true ↔ ¬ IsTagLine line := by
  rw [← isSome_tagStart?_iff, isContinued]
  simp

/-! ## The lines of a tag -/

/-- The indices of the lines of a tag. -/
def Tag.indices (t : Tag) : List Nat :=
  List.range' t.firstLine (t.lastLine + 1 - t.firstLine)

/-- **The tags are those of the lines which open one**, each with the lines behind it that open none. -/
theorem mem_tagsFrom_iff {t : Tag} : t ∈ tagsFrom start none lines ↔
    ∃ front line name text rest, lines = front ++ line :: rest ∧ tagStart? line = some (name, text) ∧
      t = Section.tagAt ⟨line, name, text, rest.takeWhile isContinued⟩ (start + front.length) := by
  constructor
  · intro h
    induction lines generalizing start with
    | nil => cases h
    | cons line lines ih =>
      have hbehind : t ∈ tagsFrom (start + 1) none lines → ∃ front opening name text rest,
          line :: lines = front ++ opening :: rest ∧ tagStart? opening = some (name, text) ∧
          t = Section.tagAt ⟨opening, name, text, rest.takeWhile isContinued⟩ (start + front.length) := by
        intro ht
        obtain ⟨front, opening, name, text, rest, rfl, hopening, rfl⟩ := ih ht
        refine ⟨line :: front, opening, name, text, rest, rfl, hopening, ?_⟩
        rw [List.length_cons, Nat.add_right_comm, Nat.add_assoc]
      cases hline : tagStart? line with
      | none =>
        rw [tagsFrom_cons hline, Option.map_none] at h
        exact hbehind h
      | some opened =>
        obtain ⟨name, text⟩ := opened
        rw [tagsFrom_opening_cons hline, List.mem_cons] at h
        rcases h with rfl | h
        · exact ⟨[], line, name, text, lines, rfl, hline, rfl⟩
        · exact hbehind h
  · rintro ⟨front, line, name, text, rest, rfl, hline, rfl⟩
    induction front generalizing start with
    | nil =>
      rw [List.nil_append, tagsFrom_opening_cons hline]
      exact List.mem_cons_self ..
    | cons first front ih =>
      have hmem := @ih (start + 1)
      rw [Nat.add_right_comm, Nat.add_assoc, ← List.length_cons (a := first)] at hmem
      rw [List.cons_append]
      cases hfirst : tagStart? first with
      | none =>
        rw [tagsFrom_cons hfirst, Option.map_none]
        exact hmem
      | some opened =>
        rw [tagsFrom_opening_cons hfirst]
        exact List.mem_cons_of_mem _ hmem

/-- A tag starts at a line iff this one opens a tag. -/
theorem exists_firstLine_iff : (∃ t ∈ tagsOf lines, t.firstLine = index) ↔
    ∃ line, lines[index]? = some line ∧ IsTagLine line := by
  constructor
  · rintro ⟨t, ht, rfl⟩
    obtain ⟨front, line, name, text, rest, rfl, hline, rfl⟩ := mem_tagsFrom_iff.1 ht
    exact ⟨line, by simp [Section.tagAt], isSome_tagStart?_iff.1 (Option.isSome_of_eq_some hline)⟩
  · rintro ⟨line, hline, hopens⟩
    obtain ⟨⟨name, text⟩, hread⟩ := Option.isSome_iff_exists.1 (isSome_tagStart?_iff.2 hopens)
    obtain ⟨hlt, rfl⟩ := List.getElem?_eq_some_iff.1 hline
    have hsplit : lines = lines.take index ++ lines[index] :: lines.drop (index + 1) := by
      rw [← List.drop_eq_getElem_cons hlt, List.take_append_drop]
    refine ⟨_, mem_tagsFrom_iff.2 ⟨_, _, name, text, _, hsplit, hread, rfl⟩, ?_⟩
    rw [Section.tagAt, List.length_take_of_le (Nat.le_of_lt hlt), Nat.zero_add]

/-- A tag ends behind its first line or at it, and it says what stands behind its name and on the lines
    after this one up to its last line. -/
theorem says_of_mem_tagsOf {t : Tag} (h : t ∈ tagsOf lines) :
    t.firstLine ≤ t.lastLine ∧ ∃ line behind, lines[t.firstLine]? = some line ∧ OpensTag line t.name behind ∧
      t.comment = nonempty? (trim (joinWith "\n"
        (behind :: (lines.take (t.lastLine + 1)).drop (t.firstLine + 1)))) := by
  obtain ⟨front, line, name, text, rest, rfl, hline, rfl⟩ := mem_tagsFrom_iff.1 h
  obtain ⟨behind, hopens, rfl⟩ := exists_of_tagStart? hline
  have hlines : ((front ++ line :: rest).take (front.length + (rest.takeWhile isContinued).length + 1)).drop
      (front.length + 1) = rest.takeWhile isContinued := by
    rw [Nat.add_assoc, List.take_length_add_append, List.drop_length_add_append, List.take_succ_cons,
      List.drop_succ_cons, List.drop_zero]
    exact (List.prefix_iff_eq_take.1 (List.takeWhile_prefix _)).symm
  refine ⟨Nat.le_add_right .., line, behind, by simp [Section.tagAt], hopens, ?_⟩
  simp only [Section.tagAt, Section.says, Nat.zero_add]
  rw [hlines, trim_joinWith_trimStart]

/-! ## The lines from the first tag on -/

/-- Tags divide the lines from one line to another: each one starts where the tag in front of it ends, the
    first one at the first line, and the last one ends at the other line. -/
inductive Divides (stop : Nat) : Nat → List Tag → Prop where
  | nil : Divides stop stop []
  | cons {start : Nat} {t : Tag} {tags : List Tag} : t.firstLine = start → t.firstLine ≤ t.lastLine →
      Divides stop (t.lastLine + 1) tags → Divides stop start (t :: tags)

/-- **The tags of lines divide these**, the lines in front of the first tag apart. -/
theorem divides_tagsFrom (start : Nat) (lines : List String) : Divides (start + lines.length)
    (start + (lines.takeWhile isContinued).length) (tagsFrom start none lines) := by
  induction lines generalizing start with
  | nil => exact .nil
  | cons line lines ih =>
    have hstop : start + (line :: lines).length = start + 1 + lines.length := by
      rw [List.length_cons, Nat.add_comm lines.length, Nat.add_assoc]
    rw [hstop]
    cases hline : tagStart? line with
    | none =>
      rw [tagsFrom_cons hline, Option.map_none, List.takeWhile_cons_of_pos (by simp [isContinued, hline]),
        List.length_cons, Nat.add_comm (lines.takeWhile isContinued).length, ← Nat.add_assoc]
      exact ih _
    | some opened =>
      have hrest := ih (start + 1)
      rw [Nat.add_right_comm start 1 (lines.takeWhile isContinued).length] at hrest
      rw [tagsFrom_opening_cons hline, List.takeWhile_cons_of_neg (by simp [isContinued, hline])]
      exact .cons rfl (Nat.le_add_right ..) hrest

section
variable {stop : Nat} {tags : List Tag}

theorem Divides.le (h : Divides stop start tags) : start ≤ stop := by
  induction h with
  | nil => exact Nat.le_refl _
  | cons hfirst hle _ ih => omega

/-- Each tag ends right before the next one. -/
theorem Divides.isChain (h : Divides stop start tags) :
    tags.IsChain fun t u => t.lastLine + 1 = u.firstLine := by
  induction h with
  | nil => exact .nil
  | cons _ _ hrest ih =>
    refine List.isChain_cons.2 ⟨fun u hu => ?_, ih⟩
    cases hrest with
    | nil => cases hu
    | cons hnext =>
      cases hu
      exact hnext.symm

/-- The last tag ends at the last line. -/
theorem Divides.getLast? (h : Divides stop start tags) : ∀ t ∈ tags.getLast?, t.lastLine + 1 = stop := by
  induction h with
  | nil => nofun
  | cons _ _ hrest ih =>
    cases hrest with
    | nil =>
      rintro _ ⟨⟩
      rfl
    | cons => exact ih

/-- The lines of the tags are all lines, each once and in order. -/
theorem Divides.flatMap_indices (h : Divides stop start tags) :
    tags.flatMap Tag.indices = List.range' start (stop - start) := by
  induction h with
  | nil => simp
  | @cons start t tags hfirst hle hrest ih =>
    subst hfirst
    have hstop := hrest.le
    have hnext : t.lastLine + 1 = t.firstLine + 1 * (t.lastLine + 1 - t.firstLine) := by omega
    have hall : stop - t.firstLine = t.lastLine + 1 - t.firstLine + (stop - (t.lastLine + 1)) := by omega
    rw [List.flatMap_cons, ih, Tag.indices, hall, ← List.range'_append, ← hnext]

end

/-- No line in front of the first one that opens a tag opens one. -/
theorem not_isTagLine_of_lt (h : index < (lines.takeWhile isContinued).length)
    (hline : lines[index]? = some line) : ¬ IsTagLine line := by
  have hfront : (lines.takeWhile isContinued ++ lines.dropWhile isContinued)[index]? =
      (lines.takeWhile isContinued)[index]? := List.getElem?_append_left h
  rw [List.takeWhile_append_dropWhile, hline] at hfront
  exact isContinued_iff.1 (List.mem_takeWhile_imp (List.mem_of_getElem? hfront.symm))

/-- The line behind those in front of it opens a tag. -/
theorem isTagLine_of_getElem?_length (hline : lines[(lines.takeWhile isContinued).length]? = some line) :
    IsTagLine line := by
  have hhead : (lines.takeWhile isContinued ++ lines.dropWhile isContinued)[
      (lines.takeWhile isContinued).length]? = (lines.dropWhile isContinued).head? := by
    rw [List.getElem?_append_right (Nat.le_refl _), Nat.sub_self, List.head?_eq_getElem?]
  rw [List.takeWhile_append_dropWhile, hline] at hhead
  have hnot := List.head?_dropWhile_not isContinued lines
  rw [← hhead] at hnot
  exact not_not.1 (mt isContinued_iff.2 (by simpa using hnot))

/-- **The tags of lines divide these from the first line on that opens a tag.**  For any lines: a tag starts
    at a line exactly if this one, trimmed, is an at sign, a name and at most one line of text.  Each tag
    ends right before the next one, and the last one at the last line; none ends before it starts.  A tag
    has the whole name that its first line gives, and it says what stands behind the name and on the lines
    after it up to its last line, joined and trimmed; it says nothing if there is nothing left.  So the
    lines of the tags, one tag after the other, are those from the first line on that opens a tag. -/
theorem tags_partition (lines : List String) :
    (∀ index, (∃ t ∈ tagsOf lines, t.firstLine = index) ↔
      ∃ line, lines[index]? = some line ∧ IsTagLine line) ∧
    ((tagsOf lines).IsChain fun t u => t.lastLine + 1 = u.firstLine) ∧
    (∀ t ∈ (tagsOf lines).getLast?, t.lastLine + 1 = lines.length) ∧
    (∀ t ∈ tagsOf lines, t.firstLine ≤ t.lastLine ∧
      ∃ line behind, lines[t.firstLine]? = some line ∧ OpensTag line t.name behind ∧
        t.comment = nonempty? (trim (joinWith "\n"
          (behind :: (lines.take (t.lastLine + 1)).drop (t.firstLine + 1))))) ∧
    ∃ first ≤ lines.length, (∀ index < first, ∀ line, lines[index]? = some line → ¬ IsTagLine line) ∧
      (∀ line, lines[first]? = some line → IsTagLine line) ∧
      (tagsOf lines).flatMap Tag.indices = List.range' first (lines.length - first) := by
  have hdivides := divides_tagsFrom 0 lines
  rw [Nat.zero_add, Nat.zero_add] at hdivides
  exact ⟨fun index => exists_firstLine_iff, hdivides.isChain, hdivides.getLast?,
    fun t => says_of_mem_tagsOf, (lines.takeWhile isContinued).length, hdivides.le,
    fun index h line => not_isTagLine_of_lt h, fun line => isTagLine_of_getElem?_length,
    hdivides.flatMap_indices⟩

/-- Tags on adjacent lines, an indented one with another line behind it, and an empty one on the last line. -/
theorem tags_partition_adjacent :
    tagsOf ["Adds.", "@a", "  @b-c x", "@ more", "@d"] =
      [⟨"a", none, 1, 1⟩, ⟨"b-c", some "x\n@ more", 2, 3⟩, ⟨"d", none, 4, 4⟩] ∧
    IsTagLine "  @b-c x" ∧ ¬ IsTagLine "@ more" := by
  have htags : tagsOf ["Adds.", "@a", "  @b-c x", "@ more", "@d"] =
      [⟨"a", none, 1, 1⟩, ⟨"b-c", some "x\n@ more", 2, 3⟩, ⟨"d", none, 4, 4⟩] := by decide +kernel
  obtain ⟨hstarts, -⟩ := tags_partition ["Adds.", "@a", "  @b-c x", "@ more", "@d"]
  rw [htags] at hstarts
  refine ⟨htags, ?_, fun hopens => ?_⟩
  · obtain ⟨line, hline, hopens⟩ := (hstarts 2).1 ⟨_, List.mem_cons_of_mem _ (List.mem_cons_self ..), rfl⟩
    cases hline
    exact hopens
  · obtain ⟨t, ht, hindex⟩ := (hstarts 3).2 ⟨"@ more", rfl, hopens⟩
    simp only [List.mem_cons, List.not_mem_nil, or_false] at ht
    rcases ht with rfl | rfl | rfl <;> cases hindex

end RouteAtlas.Doc
