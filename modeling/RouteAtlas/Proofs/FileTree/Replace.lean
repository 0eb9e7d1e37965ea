/-
  RouteAtlas: files that are put in place in one step.

  * `Directory.dropAt_putAt`: what was put where nothing was, and is taken out again, leaves nothing;
  * `run_replaceBy`: with any free place for the temporary file, the file is put in its place as if there
    had been no other, or it is refused because a directory stands there, and the tree is what it was;
  * `lookup_freeName`: a free name is taken by no entry;
  * `run_replace`: a file is put in its place, or the tree is what it was.
-/
import RouteAtlas.Proofs.FileTree.Making

namespace RouteAtlas

open RouteAtlas.Work

/-! ## Entries that come and go -/

namespace Directory

variable {entries : Directory} {name : String} {place : Place} {e e' : Entry}

theorem set_set (entries : Directory) (name : String) (e e' : Entry) :
    (entries.set name e).set name e' = entries.set name e' := by
  induction entries with
  | nil => simp [set]
  | cons first rest ih =>
    rw [set]
    split
    · rename_i hn
      rw [set, if_pos hn, set, if_pos hn]
    · rename_i hn
      rw [set, if_neg hn, ih, set, if_neg hn]

theorem set_of_lookup (h : entries.lookup name = some e) : entries.set name e = entries := by
  induction entries with
  | nil => cases h
  | cons first rest ih =>
    obtain ⟨n, old⟩ := first
    rw [lookup_cons_if] at h
    rw [set]
    by_cases hn : n = name
    · rw [if_pos hn.symm] at h
      rw [if_pos (by simpa using hn), Option.some.inj h]
    · rw [if_neg (Ne.symm hn)] at h
      rw [if_neg (by simpa using hn), ih h]

theorem drop_set (h : entries.lookup name = none) : (entries.set name e).drop name = entries := by
  induction entries with
  | nil => simp [set, drop]
  | cons first rest ih =>
    obtain ⟨n, old⟩ := first
    rw [lookup_cons_if] at h
    by_cases hn : n = name
    · rw [if_pos hn.symm] at h
      cases h
    · rw [if_neg (Ne.symm hn)] at h
      have hrest := ih h
      rw [set, if_neg (by simpa using hn)]
      unfold drop at hrest ⊢
      rw [List.filter_cons_of_pos (by simpa using hn), hrest]

/-- What is put later at a place stands there. -/
theorem putAt_putAt : ∀ (entries : Directory) (place : Place) (e e' : Entry),
    (entries.putAt e place).putAt e' place = entries.putAt e' place
  | _, [], _, _ => rfl
  | entries, [name], e, e' => set_set entries name e e'
  | entries, name :: next :: rest, e, e' => by
    cases hl : entries.lookup name with
    | none => simp only [putAt, hl]
    | some old =>
      cases old with
      | directory inner refusal =>
        simp only [putAt, hl, lookup_set, if_true, set_set, putAt_putAt inner (next :: rest)]
      | file content => simp only [putAt, hl]
      | link target => simp only [putAt, hl]

/-- What was put where nothing was, and is taken out again, leaves nothing behind. -/
theorem dropAt_putAt : ∀ {entries : Directory} {place : Place}, place ≠ [] →
    entries.at? place = none → (entries.putAt e place).dropAt place = entries
  | _, [], hne, _ => absurd rfl hne
  | entries, [name], _, hnone => by
    rw [at?_cons] at hnone
    refine drop_set ?_
    cases hl : entries.lookup name with
    | none => rfl
    | some old => rw [hl] at hnone; simp at hnone
  | entries, name :: next :: rest, _, hnone => by
    cases hl : entries.lookup name with
    | none => simp only [putAt, dropAt, hl]
    | some old =>
      cases old with
      | directory inner refusal =>
        have hinner : Directory.at? inner (next :: rest) = none := by
          rw [at?_cons, hl] at hnone
          exact hnone
        simp only [putAt, dropAt, hl, lookup_set, if_true, set_set]
        rw [dropAt_putAt (by simp) hinner, set_of_lookup hl]
      | file content => simp only [putAt, dropAt, hl]
      | link target => simp only [putAt, dropAt, hl]

end Directory

namespace FileTree

variable {t : FileTree} {path temporary : FilePath} {place here there : Place} {content : ByteArray}

/-! ## Single changes -/

theorem run_create (t : FileTree) (path : FilePath) (content : ByteArray) :
    (create path content).run.run t =
      match t.ownPlace path with
      | .error e => (.error e, t)
      | .ok place =>
        match t.at? place with
        | none => (.ok (), { t with root := t.root.putAt (.file content) place })
        | some _ => (.error .occupied, t) := by
  unfold create
  rw [run_bind, run_examine]
  cases t.ownPlace path with
  | error e => rfl
  | ok place =>
    simp only [Except.map]
    cases t.at? place <;> rfl

section
variable (hsource : t.ownPlace temporary = .ok here) (hfile : t.at? here = some (.file content))
  (hpath : t.ownPlace path = .ok there)
include hsource hfile hpath

/-- A file is not moved where a directory stands. -/
theorem run_move_refused (hd : t.HasDirectory there) :
    (move temporary path).run.run t = (.error .isDirectory, t) := by
  obtain ⟨entries, refusal, he⟩ := hd
  unfold move
  rw [run_bind, run_examine, hsource]
  simp only [Except.map, hfile]
  rw [run_bind, run_examine, hpath]
  simp only [Except.map, he]
  rfl

theorem run_move (hd : ¬ t.HasDirectory there) : (move temporary path).run.run t =
    (.ok (), { t with root := (t.root.dropAt here).putAt (.file content) there }) := by
  unfold move
  rw [run_bind, run_examine, hsource]
  simp only [Except.map, hfile]
  rw [run_bind, run_examine, hpath]
  simp only [Except.map]
  cases he : t.at? there with
  | none => rfl
  | some e =>
    cases e with
    | directory entries refusal => exact absurd ⟨entries, refusal, he⟩ hd
    | file content => rfl
    | link target => rfl

end

theorem run_discard (hplace : t.ownPlace path = .ok place) {e : Entry} (he : t.at? place = some e) :
    (discard path).run.run t = (.ok (), { t with root := t.root.dropAt place }) := by
  unfold discard
  rw [run_tryCatch, run_delete, hplace]
  simp only [he]

/-! ## Through a temporary file -/

/-- With a free place for the temporary file, writing a file and moving it to its place is either refused
    because a directory stands there, and the tree is what it was, or the file is put in its place as if
    there had been no other. -/
theorem run_replaceBy (htemporary : t.ownPlace temporary = .ok here) (hfree : t.at? here = none)
    (habove : t.HasDirectory here.dropLast) (hpath : t.ownPlace path = .ok there)
    (content : ByteArray) :
    (t.HasDirectory there ∧ (replaceBy temporary path content).run.run t = (.error .isDirectory, t)) ∨
      (¬ t.HasDirectory there ∧ (replaceBy temporary path content).run.run t =
        (.ok (), { t with root := t.root.putAt (.file content) there })) := by
  have hne : here ≠ [] := by
    rintro rfl
    cases hfree
  have hbelow : ∀ data, Directory.NothingBelow (some (.file data)) := fun data =>
    Directory.nothingBelow_of_not_directory (by simp)
  have hgrown : ∀ data, Grown t { t with root := t.root.putAt (.file data) here } := fun data =>
    grown_put (hbelow data) (by simp) hfree
  have hself : ∀ data,
      { t with root := t.root.putAt (.file data) here }.at? here = some (.file data) := fun data =>
    at?_put (.file data) habove hne
  have hcreate : (create temporary .empty).run.run t =
      (.ok (), { t with root := t.root.putAt (.file .empty) here }) := by
    rw [run_create, htemporary]
    simp only [hfree]
  have hwrite : (write temporary content).run.run { t with root := t.root.putAt (.file .empty) here } =
      (.ok (), { t with root := t.root.putAt (.file content) here }) := by
    have hplace := placeOf_of_ownPlace (ownPlace_leads (hgrown .empty).leads htemporary)
      (by simp [hself .empty])
    rw [run_write, hplace]
    simp only [hself .empty, Directory.putAt_putAt]
  have hdrop : (t.root.putAt (.file content) here).dropAt here = t.root :=
    Directory.dropAt_putAt hne hfree
  have hhere := ownPlace_leads (hgrown content).leads htemporary
  have hthere := ownPlace_leads (hgrown content).leads hpath
  unfold replaceBy
  rw [run_bind, hcreate]
  simp only
  rw [run_tryCatch, run_bind, hwrite]
  simp only
  by_cases hd : t.HasDirectory there
  · refine Or.inl ⟨hd, ?_⟩
    rw [run_move_refused hhere (hself content) hthere ((hgrown content).at?_directory hd)]
    simp only
    rw [run_bind, run_discard hhere (hself content), hdrop]
    rfl
  · refine Or.inr ⟨hd, ?_⟩
    have hnot : ¬ { t with root := t.root.putAt (.file content) here }.HasDirectory there :=
      mt (hasDirectory_put_file content habove hfree) hd
    rw [run_move hhere (hself content) hthere hnot, hdrop]

/-! ## Free names -/

theorem length_le_longest {entries : Directory} {e : String × Entry} (h : e ∈ entries) :
    e.1.length ≤ entries.foldr (fun e n => max e.1.length n) 0 := by
  induction entries with
  | nil => cases h
  | cons first rest ih =>
    rw [List.foldr_cons]
    rcases List.mem_cons.1 h with rfl | h
    · exact Nat.le_max_left _ _
    · exact Nat.le_trans (ih h) (Nat.le_max_right _ _)

theorem longest_lt_length_freeName (entries : Directory) :
    entries.foldr (fun e n => max e.1.length n) 0 + 10 = (freeName entries).length := by
  have hfront : ".tmp_".length = 5 := by decide
  have hback : ".json".length = 5 := by decide
  simp only [freeName, String.length_append, String.length_ofList, List.length_replicate, hfront,
    hback]
  omega

/-- A free name is taken by none of the entries. -/
theorem lookup_freeName (entries : Directory) : entries.lookup (freeName entries) = none := by
  cases hl : entries.lookup (freeName entries) with
  | none => rfl
  | some e =>
    have hle : (freeName entries).length ≤ _ := length_le_longest (Directory.mem_of_lookup hl)
    have hlong := longest_lt_length_freeName entries
    omega

theorem freeName_ne_above (entries : Directory) : freeName entries ≠ ".." := by
  intro h
  have hlong := longest_lt_length_freeName entries
  have hup : "..".length = 2 := by decide
  rw [h, hup] at hlong
  omega

/-! ## Files in one step -/

/-- Below a directory the last name of a path has a place, whatever stands there. -/
theorem exists_ownPlace (hd : t.isDirectory path.parent = true) :
    ∃ place, t.ownPlace path = .ok place := by
  obtain ⟨above, habove, hdir⟩ := isDirectory_iff.1 hd
  by_cases hne : path.names = []
  · have hparent : path.parent = path := by
      cases path
      simp only at hne
      simp [FilePath.parent, hne]
    refine ⟨above, ?_⟩
    unfold ownPlace
    rwa [if_pos (by simp [hne]), ← hparent]
  · by_cases hup : path.name = ".."
    · refine ⟨above.dropLast, ?_⟩
      unfold ownPlace
      rw [if_pos (by simp [hup]), ← child_parent hne, hup]
      unfold placeOf at habove ⊢
      have hroot : (path.parent.child "..").isAbsolute = path.parent.isAbsolute := rfl
      rw [hroot]
      split at habove
      · obtain ⟨left, hleft⟩ := follow_concat hdir habove
        refine (hleft "..").trans ?_
        rw [follow, if_pos (by simp), follow]
      · cases habove
    · exact ⟨above ++ [path.name], ownPlace_eq hne hup habove hdir⟩

/-- A file that is put in its place: the tree is what it was if the temporary file has no directory, or if
    a directory stands in the place. -/
theorem run_replace (hpath : t.ownPlace path = .ok place) (content : ByteArray) :
    ((t.isDirectory (t.spelledOut path.parent) = false ∨ t.HasDirectory place) ∧
      ∃ e, (replace path content).run.run t = (.error e, t)) ∨
    (¬ t.HasDirectory place ∧ (replace path content).run.run t =
      (.ok (), { t with root := t.root.putAt (.file content) place })) := by
  unfold replace
  rw [run_bind, run_get]
  simp only
  generalize hbeside : t.spelledOut path.parent = beside
  have hup := freeName_ne_above (t.entriesIn beside)
  cases hd : t.isDirectory beside with
  | false =>
    refine Or.inl ⟨Or.inl rfl, ?_⟩
    cases hown : t.ownPlace (beside.child (freeName (t.entriesIn beside))) with
    | error e =>
      refine ⟨e, ?_⟩
      unfold replaceBy
      rw [run_bind, run_create, hown]
    | ok temporary => exact absurd (isDirectory_of_ownPlace_child hup hown) (by simp [hd])
  | true =>
    obtain ⟨above, habove, entries, refusal, hentries⟩ := isDirectory_iff.1 hd
    have hin : t.entriesIn beside = entries := by
      unfold entriesIn
      rw [habove]
      simp only [hentries]
    have hdir : t.HasDirectory above := ⟨entries, refusal, hentries⟩
    have htemporary : t.ownPlace (beside.child (freeName (t.entriesIn beside))) =
        .ok (above ++ [freeName (t.entriesIn beside)]) := ownPlace_child habove hdir hup
    have hfree : t.at? (above ++ [freeName (t.entriesIn beside)]) = none := by
      unfold at?
      rw [Directory.at?_append, show t.root.at? above = _ from hentries]
      rw [Option.bind_some, Entry.at?_directory (by simp), Directory.at?_cons, hin,
        lookup_freeName entries, Option.bind_none]
    rcases run_replaceBy htemporary hfree (by rwa [List.dropLast_concat]) hpath content with
      ⟨htaken, hrun⟩ | hrun
    · exact Or.inl ⟨Or.inr htaken, _, hrun⟩
    · exact Or.inr hrun

end FileTree

end RouteAtlas
