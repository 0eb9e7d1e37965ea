/-
  RouteAtlas: the lines of comments, told apart by the tags over them.

  A line belongs to the tag that was opened last, at it or before it.

  * `sectionsOf` are the lines of each tag, cut at the lines that open one; `nameOver?` is the name of the
    tag over a line;
  * `tagsFrom_opening_cons`: the tags that are read are those of the sections, and the first and the last
    line of a tag are those of its section;
  * `inTag_iff`: a line is in a tag of a name iff the tag over it has this name;
  * `flatMap_sectionsNamed`: the sections of a name are made of the lines under it, in order;
  * `documentation_bodyType` joins these, for any blocks: the documentation has the lines that are not
    under the tag, the body is what the last section of the tag says.
-/
import RouteAtlas.Proofs.Doc.RoundTrip

namespace RouteAtlas.Doc

open RouteAtlas.Text

/-! ## Sections -/

/-- A line that opens a tag, with what it says of the tag, and the lines up to the next such line. -/
structure Section where
  opening : String
  name : String
  text : String
  continued : List String
  deriving DecidableEq, Repr

/-- Whether a line opens no tag. -/
def isContinued (line : String) : Bool :=
  (tagStart? line).isNone

/-- The sections of lines.  Lines in front of the first tag are in none. -/
def sectionsOf : List String → List Section
  | [] => []
  | line :: rest =>
    match tagStart? line with
    | some (name, text) => ⟨line, name, text, rest.takeWhile isContinued⟩ :: sectionsOf rest
    | none => sectionsOf rest

/-- The sections of a name. -/
def sectionsNamed (tag : String) (lines : List String) : List Section :=
  (sectionsOf lines).filter fun s => s.name == tag

/-- The lines of a section. -/
def Section.lines (s : Section) : List String :=
  s.opening :: s.continued

/-- What a section says behind the name of its tag, if it says anything. -/
def Section.says (s : Section) : Option String :=
  nonempty? (trim (joinWith "\n" (s.text :: s.continued)))

/-- The tag of a section that starts at a line. -/
def Section.tagAt (s : Section) (index : Nat) : Tag :=
  ⟨s.name, s.says, index, index + s.continued.length⟩

/-- The name of the tag over a line: that of the last line at or before it that opens a tag. -/
def nameOver? (lines : List String) (index : Nat) : Option String :=
  ((lines.take (index + 1)).filterMap tagStart?).getLast?.map Prod.fst

/-- The lines under tags of a name. -/
def linesUnder (tag : String) (lines : List String) : List String :=
  (lines.zipIdx.filter fun entry => nameOver? lines entry.2 == some tag).map Prod.fst

/-- The lines that are not under tags of a name. -/
def linesApart (tag : String) (lines : List String) : List String :=
  (lines.zipIdx.filter fun entry => !(nameOver? lines entry.2 == some tag)).map Prod.fst

variable {line name text tag : String} {lines rest : List String} {index : Nat}

theorem sectionsOf_opening (h : tagStart? line = some (name, text)) (rest : List String) :
    sectionsOf (line :: rest) = ⟨line, name, text, rest.takeWhile isContinued⟩ :: sectionsOf rest := by
  simp [sectionsOf, h]

theorem sectionsOf_continued (h : tagStart? line = none) (rest : List String) :
    sectionsOf (line :: rest) = sectionsOf rest := by
  simp [sectionsOf, h]

/-- **Every line is either under tags of a name or apart from them**, and none is lost. -/
theorem linesUnder_append_linesApart (tag : String) (lines : List String) :
    (linesUnder tag lines ++ linesApart tag lines).Perm lines := by
  have hperm := List.filter_append_perm (fun entry => nameOver? lines entry.2 == some tag) lines.zipIdx
  simpa [linesUnder, linesApart] using hperm.map Prod.fst

/-! ## The tags that are read -/

/-- A tag in progress takes the lines up to the next one that opens a tag. -/
theorem tagsFrom_some (index : Nat) (t : OpenTag) (lines : List String) : tagsFrom index (some t) lines =
    OpenTag.close { t with parts := (lines.takeWhile isContinued).reverse ++ t.parts }
      (index + (lines.takeWhile isContinued).length - 1) :: tagsFrom index none lines := by
  induction lines generalizing index t with
  | nil => rfl
  | cons line rest ih =>
    cases hline : tagStart? line with
    | some opened =>
      rw [List.takeWhile_cons_of_neg (by simp [isContinued, hline])]
      simp [tagsFrom, hline]
    | none =>
      rw [tagsFrom_cons hline, tagsFrom_cons hline, List.takeWhile_cons_of_pos (by simp [isContinued, hline]),
        Option.map_some, ih, List.reverse_cons, List.append_assoc, List.length_cons, Nat.add_assoc,
        Nat.add_comm 1]
      rfl

/-- The tag that a line opens is that of its section. -/
theorem tagsFrom_opening_cons (h : tagStart? line = some (name, text)) (index : Nat) (rest : List String) :
    tagsFrom index none (line :: rest) =
      Section.tagAt ⟨line, name, text, rest.takeWhile isContinued⟩ index ::
        tagsFrom (index + 1) none rest := by
  have hlast : index + 1 + (rest.takeWhile isContinued).length - 1 =
      index + (rest.takeWhile isContinued).length := by omega
  rw [tagsFrom_opening h, tagsFrom_some, hlast]
  simp [OpenTag.close, Section.tagAt, Section.says]

/-- No tag that is read from a line on starts before it. -/
theorem le_firstLine {t : Tag} (h : t ∈ tagsFrom index none lines) : index ≤ t.firstLine := by
  induction lines generalizing index with
  | nil => simp [tagsFrom] at h
  | cons line rest ih =>
    cases hline : tagStart? line with
    | some opened =>
      obtain ⟨name, text⟩ := opened
      rw [tagsFrom_opening_cons hline, List.mem_cons] at h
      rcases h with rfl | hrest
      · exact Nat.le_refl index
      · exact Nat.le_of_succ_le (ih hrest)
    | none =>
      rw [tagsFrom_cons hline, Option.map_none] at h
      exact Nat.le_of_succ_le (ih h)

/-- The tags of lines have the names of their sections and say what these say. -/
theorem map_tagsFrom (index : Nat) (lines : List String) :
    (tagsFrom index none lines).map (fun t => (t.name, t.comment)) =
      (sectionsOf lines).map fun s => (s.name, s.says) := by
  induction lines generalizing index with
  | nil => rfl
  | cons line rest ih =>
    cases hline : tagStart? line with
    | some opened =>
      obtain ⟨name, text⟩ := opened
      rw [tagsFrom_opening_cons hline, sectionsOf_opening hline, List.map_cons, List.map_cons, ih]
      simp only [Section.tagAt]
    | none =>
      rw [tagsFrom_cons hline, sectionsOf_continued hline, Option.map_none, ih]

/-! ## The tag over a line -/

theorem nameOver?_zero (line : String) (rest : List String) :
    nameOver? (line :: rest) 0 = (tagStart? line).map Prod.fst := by
  cases h : tagStart? line <;> simp [nameOver?, h]

/-- The tag over a line was opened behind the first line, or by it. -/
theorem nameOver?_succ (line : String) (rest : List String) (index : Nat) :
    nameOver? (line :: rest) (index + 1) = (nameOver? rest index).or ((tagStart? line).map Prod.fst) := by
  unfold nameOver?
  rw [List.take_succ_cons, List.filterMap_cons]
  cases h : tagStart? line with
  | none => simp
  | some opened =>
    cases hlast : ((rest.take (index + 1)).filterMap tagStart?).getLast? <;>
      simp [List.getLast?_cons, hlast]

/-- There is no tag over a line iff neither it nor a line before it opens one. -/
theorem nameOver?_eq_none_iff (h : index < lines.length) :
    nameOver? lines index = none ↔ index < (lines.takeWhile isContinued).length := by
  induction lines generalizing index with
  | nil => simp at h
  | cons line rest ih =>
    cases hline : tagStart? line with
    | some opened =>
      rw [List.takeWhile_cons_of_neg (by simp [isContinued, hline])]
      cases index with
      | zero => simp [nameOver?_zero, hline]
      | succ index => simp [nameOver?_succ, hline]
    | none =>
      rw [List.takeWhile_cons_of_pos (by simp [isContinued, hline]), List.length_cons]
      cases index with
      | zero => simp [nameOver?_zero, hline]
      | succ index =>
        rw [nameOver?_succ, hline, Option.map_none, Option.or_none, ih (Nat.lt_of_succ_lt_succ h)]
        omega

/-- Among the tags that are read from a line on, one of a name has another line iff the tag over this has
    the name. -/
theorem exists_tagsFrom_iff (start : Nat) (h : index < lines.length) :
    (∃ t ∈ tagsFrom start none lines,
      t.name = tag ∧ t.firstLine ≤ start + index ∧ start + index ≤ t.lastLine) ↔
        nameOver? lines index = some tag := by
  induction lines generalizing start index with
  | nil => simp at h
  | cons line rest ih =>
    cases index with
    | zero =>
      -- The tags of the lines behind the first one have no part of it.
      have hrest : ¬ ∃ t ∈ tagsFrom (start + 1) none rest,
          t.name = tag ∧ t.firstLine ≤ start ∧ start ≤ t.lastLine := by
        rintro ⟨t, ht, -, hle, -⟩
        exact absurd (le_firstLine ht) (by omega)
      rw [nameOver?_zero, Nat.add_zero]
      cases hline : tagStart? line with
      | none =>
        rw [tagsFrom_cons hline, Option.map_none]
        simpa using hrest
      | some opened =>
        obtain ⟨name, text⟩ := opened
        rw [tagsFrom_opening_cons hline, List.exists_mem_cons_iff, or_iff_left hrest]
        simp [Section.tagAt]
    | succ index =>
      have hindex : index < rest.length := Nat.lt_of_succ_lt_succ h
      have hshift : start + (index + 1) = start + 1 + index := by omega
      rw [nameOver?_succ, hshift]
      cases hline : tagStart? line with
      | none =>
        rw [tagsFrom_cons hline, Option.map_none, Option.map_none, Option.or_none]
        exact ih _ hindex
      | some opened =>
        obtain ⟨name, text⟩ := opened
        rw [tagsFrom_opening_cons hline, List.exists_mem_cons_iff, ih _ hindex]
        have hcontinued := nameOver?_eq_none_iff hindex
        cases hover : nameOver? rest index with
        | none =>
          have hlt := hcontinued.1 hover
          have hinside : start ≤ start + 1 + index ∧
              start + 1 + index ≤ start + (rest.takeWhile isContinued).length := by omega
          simp [Section.tagAt, hinside]
        | some other =>
          have hstop : ¬ index < (rest.takeWhile isContinued).length := fun hlt =>
            Option.some_ne_none other (hover.symm.trans (hcontinued.2 hlt))
          have houtside : ¬ start + 1 + index ≤ start + (rest.takeWhile isContinued).length := by omega
          simp [Section.tagAt, houtside]

/-! ## The lines under a tag -/

/-- The lines under a tag that was opened in front of them, or that one of them opens. -/
def linesUnderFrom (before : Option String) (tag : String) (lines : List String) : List String :=
  (lines.zipIdx.filter fun entry => (nameOver? lines entry.2).or before == some tag).map Prod.fst

theorem linesUnderFrom_cons (before : Option String) (tag line : String) (rest : List String) :
    linesUnderFrom before tag (line :: rest) =
      (if ((tagStart? line).map Prod.fst).or before = some tag then [line] else []) ++
        linesUnderFrom (((tagStart? line).map Prod.fst).or before) tag rest := by
  have hrest : ((rest.zipIdx 1).filter fun entry =>
      (nameOver? (line :: rest) entry.2).or before == some tag).map Prod.fst =
        linesUnderFrom (((tagStart? line).map Prod.fst).or before) tag rest := by
    rw [List.zipIdx_succ, List.filter_map, List.map_map]
    refine congrArg _ (List.filter_congr fun entry _ => ?_)
    simp [nameOver?_succ, Option.or_assoc]
  rw [← hrest]
  unfold linesUnderFrom
  rw [List.zipIdx_cons, List.filter_cons, nameOver?_zero]
  by_cases hfirst : ((tagStart? line).map Prod.fst).or before = some tag
  · rw [if_pos (beq_iff_eq.2 hfirst), if_pos hfirst]
    rfl
  · rw [if_neg (fun h => hfirst (beq_iff_eq.1 h)), if_neg hfirst]
    rfl

/-- The lines under a tag are those up to the first that opens one, if it is the tag in front of them, and
    those of its sections. -/
theorem linesUnderFrom_eq (before : Option String) (tag : String) (lines : List String) :
    linesUnderFrom before tag lines =
      (if before = some tag then lines.takeWhile isContinued else []) ++
        (sectionsNamed tag lines).flatMap Section.lines := by
  induction lines generalizing before with
  | nil => simp [linesUnderFrom, sectionsNamed, sectionsOf]
  | cons line rest ih =>
    rw [linesUnderFrom_cons, ih]
    cases hline : tagStart? line with
    | none =>
      rw [List.takeWhile_cons_of_pos (by simp [isContinued, hline])]
      by_cases hbefore : before = some tag <;>
        simp [hbefore, sectionsNamed, sectionsOf_continued hline]
    | some opened =>
      obtain ⟨name, text⟩ := opened
      rw [List.takeWhile_cons_of_neg (by simp [isContinued, hline])]
      by_cases hname : name = tag <;>
        simp [hname, sectionsNamed, sectionsOf_opening hline, Section.lines]

/-- **The sections of a name are made of the lines under it**, each once and in order. -/
theorem flatMap_sectionsNamed (tag : String) (lines : List String) :
    (sectionsNamed tag lines).flatMap Section.lines = linesUnder tag lines := by
  have h := linesUnderFrom_eq none tag lines
  simpa [linesUnderFrom, linesUnder] using h.symm

/-! ## What is read from blocks -/

/-- The block of a comment has the tags of its lines. -/
theorem Block.tags_ofComment (text : String) (startLine endLine : Int) :
    (Block.ofComment text startLine endLine).tags =
      tagsOf (Block.ofComment text startLine endLine).lines := by
  simp only [Block.ofComment]

/-- **A line is in a tag of a name iff the tag over it has this name.** -/
theorem inTag_iff {b : Block} (hb : b.tags = tagsOf b.lines) (h : index < b.lines.length) :
    b.inTag tag index = true ↔ nameOver? b.lines index = some tag := by
  have hread : _ ↔ nameOver? b.lines index = some tag := exists_tagsFrom_iff 0 h
  rw [Nat.zero_add] at hread
  rw [← hread, Block.inTag, hb, List.any_eq_true]
  simp [tagsOf, and_assoc]

/-- The lines outside the tags of a name are those that are not under them. -/
theorem linesOutside_eq {b : Block} (hb : b.tags = tagsOf b.lines) :
    b.linesOutside tag = linesApart tag b.lines := by
  refine congrArg _ (List.filter_congr fun entry hentry => congrArg _ ?_)
  have hlt : entry.2 < b.lines.length := by simpa using List.snd_lt_of_mem_zipIdx hentry
  rw [Bool.eq_iff_iff, inTag_iff hb hlt, beq_iff_eq]

/-- The texts of blocks apart from tags of a name, trimmed; blank ones are dropped. -/
def textsApart (tag : String) (blocks : List Block) : List String :=
  (blocks.map fun b => trim (joinWith "\n" (linesApart tag b.lines))).filter fun t => !t.isEmpty

theorem isEmpty_of_mem_textsApart (tag : String) (blocks : List Block) :
    ∀ t ∈ textsApart tag blocks, t.isEmpty = false := fun t ht => by
  simpa using (List.mem_filter.1 ht).2

/-- The documentation is made of the lines that are not under the tags of a name. -/
theorem documentation_eq {blocks : List Block} (hread : ∀ b ∈ blocks, b.tags = tagsOf b.lines) :
    documentation tag blocks = nonempty? (joinWith "\n" (textsApart tag blocks)) := by
  have htexts : (blocks.map fun b => b.textOutside tag) =
      blocks.map fun b => trim (joinWith "\n" (linesApart tag b.lines)) :=
    List.map_congr_left fun b hb => by rw [Block.textOutside, linesOutside_eq (hread b hb)]
  rw [documentation, htexts, textsApart]

/-- What the last tag of a name says is what its section says. -/
theorem bodyType_eq {blocks : List Block} (hread : ∀ b ∈ blocks, b.tags = tagsOf b.lines) :
    bodyType tag blocks =
      ((blocks.flatMap fun b => sectionsNamed tag b.lines).getLast?).bind Section.says := by
  have hnamed : ∀ b ∈ blocks, (b.tags.filter fun t => t.name == tag).map Tag.comment =
      (sectionsNamed tag b.lines).map Section.says := by
    intro b hb
    have hfiltered := congrArg (fun pairs => (pairs.filter fun pair => pair.1 == tag).map Prod.snd)
      (map_tagsFrom 0 b.lines)
    simp only [List.filter_map, List.map_map, Function.comp_def] at hfiltered
    rw [hread b hb, tagsOf, sectionsNamed]
    exact hfiltered
  have hall : ((blocks.flatMap Block.tags).filter fun t => t.name == tag).map Tag.comment =
      (blocks.flatMap fun b => sectionsNamed tag b.lines).map Section.says := by
    rw [List.filter_flatMap, List.map_flatMap, List.map_flatMap]
    exact List.flatMap_congr hnamed
  have hlast : ∀ {α : Type} (l : List α) (say : α → Option String),
      l.getLast?.bind say = (l.map say).getLast?.bind id := by
    intro α l say
    rw [List.getLast?_map, Option.bind_map, Function.id_comp]
  rw [bodyType, hlast, hall, ← hlast]

/-- Lines say nothing, trimmed, iff they are all blank. -/
theorem trim_joinWith_isEmpty (lines : List String) :
    (trim (joinWith "\n" lines)).isEmpty = true ↔ ∀ l ∈ lines, isBlankLine l.toList = true := by
  have hnewline : ∀ c ∈ "\n".toList, isBlank c = true := List.forall_mem_singleton.2 rfl
  rw [String.isEmpty_iff, trim, String.ofList_eq_empty_iff, trimChars_eq_nil_iff, joinWith,
    String.toList_ofList, forall_mem_joinChars hnewline, List.forall_mem_map]
  simp only [isBlankLine, List.all_eq_true]

/-- There are no texts apart from a tag iff all lines apart from it are blank. -/
theorem textsApart_eq_nil_iff {blocks : List Block} : textsApart tag blocks = [] ↔
    ∀ b ∈ blocks, ∀ l ∈ linesApart tag b.lines, isBlankLine l.toList = true := by
  rw [textsApart, List.filter_eq_nil_iff, List.forall_mem_map]
  simp only [Bool.not_eq_true', Bool.not_eq_false, trim_joinWith_isEmpty]

/-- Texts that are not empty make none only if there are none. -/
theorem nonempty?_joinWith_eq_none_iff {sep : String} {texts : List String}
    (h : ∀ t ∈ texts, t.isEmpty = false) :
    nonempty? (joinWith sep texts) = none ↔ texts = [] := by
  cases texts with
  | nil => simp [nonempty?, joinWith, joinChars]
  | cons first rest =>
    have hfirst : first.toList ≠ [] := fun hnil => by
      simp [String.toList_eq_nil_iff.1 hnil] at h
    have hjoined : joinWith sep (first :: rest) ≠ "" := by
      rw [joinWith, List.map_cons, joinChars_cons, Ne, String.ofList_eq_empty_iff, List.append_eq_nil_iff]
      exact fun hnil => hfirst hnil.1
    simp [nonempty?, hjoined]

/-- The blocks of comments, each with its first and its last line. -/
def commentBlocks (comments : List (String × Int × Int)) : List Block :=
  comments.map fun c => .ofComment c.1 c.2.1 c.2.2

/-- **Documentation and body divide the lines of blocks between them.**  For blocks of any comments and any
    name of a tag: a line is in a tag of the name iff the last line at or before it, in its block, that
    opens a tag opens one of this name.  The documentation is made of all other lines, in order; the lines
    of each block are trimmed as a text, and blank texts are dropped.  There is none iff all these lines are
    blank.  The body is what the last section of the name says, over all blocks, if it says anything.  The
    sections of a name have the lines that the documentation leaves out, and no others. -/
theorem documentation_bodyType (tag : String) (comments : List (String × Int × Int)) :
    (∀ b ∈ commentBlocks comments, ∀ index < b.lines.length,
      b.inTag tag index = true ↔ nameOver? b.lines index = some tag) ∧
    documentation tag (commentBlocks comments) =
      nonempty? (joinWith "\n" (textsApart tag (commentBlocks comments))) ∧
    (documentation tag (commentBlocks comments) = none ↔
      ∀ b ∈ commentBlocks comments, ∀ l ∈ linesApart tag b.lines, isBlankLine l.toList = true) ∧
    bodyType tag (commentBlocks comments) =
      (((commentBlocks comments).flatMap fun b => sectionsNamed tag b.lines).getLast?).bind Section.says ∧
    ∀ b ∈ commentBlocks comments,
      (sectionsNamed tag b.lines).flatMap Section.lines = linesUnder tag b.lines ∧
        (linesUnder tag b.lines ++ linesApart tag b.lines).Perm b.lines := by
  have hread : ∀ b ∈ commentBlocks comments, b.tags = tagsOf b.lines :=
    List.forall_mem_map.2 fun c _ => Block.tags_ofComment c.1 c.2.1 c.2.2
  refine ⟨fun b hb index h => inTag_iff (hread b hb) h, documentation_eq hread, ?_, bodyType_eq hread,
    fun b _ => ⟨flatMap_sectionsNamed tag b.lines, linesUnder_append_linesApart tag b.lines⟩⟩
  rw [documentation_eq hread, nonempty?_joinWith_eq_none_iff (isEmpty_of_mem_textsApart tag _),
    textsApart_eq_nil_iff]

/-- A tag between lines of the documentation, and a block of two tags that say nothing: the last one is the
    body, so there is none. -/
theorem documentation_bodyType_silent :
    bodyType "body" [Block.ofComment "/** Adds.\n * @body A\n * @query q\n * x\n */" 1 5,
        Block.ofComment "/** @body\n * @body\n */" 6 8] = none ∧
      documentation "body" [Block.ofComment "/** Adds.\n * @body A\n * @query q\n * x\n */" 1 5,
        Block.ofComment "/** @body\n * @body\n */" 6 8] = some "Adds.\n@query q\nx" := by
  obtain ⟨-, hdocumentation, -, hbody, -⟩ := documentation_bodyType "body"
    [("/** Adds.\n * @body A\n * @query q\n * x\n */", 1, 5), ("/** @body\n * @body\n */", 6, 8)]
  exact ⟨hbody.trans (by decide +kernel), hdocumentation.trans (by decide +kernel)⟩

end RouteAtlas.Doc
