/-
  RouteAtlas: changes of single files.

  * `Spares names t t'`: the change from one plain tree to another leaves all directories where they are,
    their refusals and all files with certain names as they are;
  * `spares_writeBelow` and `spares_removeFile`: writing or removing a file spares all other names;
  * `Distinct t`: the names in every directory are different, and stay so.
-/
import RouteAtlas.FileTree.Change
import RouteAtlas.Proofs.FileTree.Plain
import RouteAtlas.Proofs.FileTree.Refusals
import RouteAtlas.Proofs.Work

namespace RouteAtlas

open RouteAtlas.Work

/-! ## Places of a directory -/

/-- What stands at a place before and behind a change of another place: the same, or a directory both
    times, with the same refusal. -/
def Alike (before after : Option Entry) : Prop :=
  before = after ∨ ∃ refusal, (∃ entries, before = some (.directory entries refusal)) ∧
    ∃ entries, after = some (.directory entries refusal)

theorem Alike.file_iff {before after : Option Entry} (h : Alike before after) (content : ByteArray) :
    before = some (.file content) ↔ after = some (.file content) := by
  rcases h with rfl | ⟨_, ⟨_, rfl⟩, ⟨_, rfl⟩⟩
  · rfl
  · simp

theorem Alike.directory {before after : Option Entry} (h : Alike before after)
    (hd : ∃ entries refusal, before = some (.directory entries refusal)) :
    ∃ entries refusal, after = some (.directory entries refusal) := by
  rcases h with rfl | ⟨refusal, -, entries, h⟩
  · exact hd
  · exact ⟨entries, refusal, h⟩

namespace Directory

/-- Nothing stands below an entry. -/
def NothingBelow (entry : Option Entry) : Prop :=
  ∀ name rest, (entry.bind fun e => e.at? (name :: rest)) = none

theorem nothingBelow_of_not_directory {entry : Option Entry}
    (h : ∀ entries refusal, entry ≠ some (.directory entries refusal)) : NothingBelow entry := by
  intro name rest
  cases entry with
  | none => rfl
  | some e =>
    cases e with
    | directory entries refusal => exact absurd rfl (h entries refusal)
    | file content => rfl
    | link target => rfl

/-- Nothing stands below a name where no directory stands. -/
theorem nothingBelow_of_at? {entries : Directory} {name : String}
    (hold : ∀ inner refusal, entries.at? [name] ≠ some (.directory inner refusal)) :
    NothingBelow (entries.lookup name) :=
  nothingBelow_of_not_directory hold

theorem nothingBelow_empty : NothingBelow (some (.directory [])) := by
  intro name rest
  rw [Option.bind_some, Entry.at?_directory (List.cons_ne_nil name rest), at?_cons]
  rfl

/-- If another entry stands under a name, and nothing stands below either of them, then all other
    places are as they were. -/
theorem alike_of_lookup {before after : Directory} {name : String}
    (hother : ∀ n, n ≠ name → after.lookup n = before.lookup n)
    (hbefore : NothingBelow (before.lookup name)) (hafter : NothingBelow (after.lookup name))
    {place : Place} (hne : place ≠ [name]) : Alike (before.at? place) (after.at? place) := by
  cases place with
  | nil => exact Or.inr ⟨none, ⟨_, rfl⟩, ⟨_, rfl⟩⟩
  | cons n rest =>
    refine Or.inl ?_
    rw [at?_cons, at?_cons]
    by_cases hn : n = name
    · subst hn
      cases rest with
      | nil => exact absurd rfl hne
      | cons next rest => rw [hbefore, hafter]
    · rw [hother n hn]

/-- If the directory under a name is another one, in which other places are as they were, then this
    holds of the places above. -/
theorem alike_set_directory {entries inner inner' : Directory} {refusal : Option String} {name : String}
    {below : Place} (hlookup : entries.lookup name = some (.directory inner refusal))
    (h : ∀ {place}, place ≠ below → Alike (inner.at? place) (inner'.at? place)) {place : Place}
    (hne : place ≠ name :: below) :
    Alike (entries.at? place) ((entries.set name (.directory inner' refusal)).at? place) := by
  cases place with
  | nil => exact Or.inr ⟨none, ⟨_, rfl⟩, ⟨_, rfl⟩⟩
  | cons n rest =>
    rw [at?_cons, at?_cons, lookup_set]
    by_cases hn : n = name
    · subst hn
      rw [if_pos rfl, hlookup]
      cases rest with
      | nil => exact Or.inr ⟨refusal, ⟨inner, rfl⟩, ⟨inner', rfl⟩⟩
      | cons next rest => exact h fun hrest => hne (by rw [hrest])
    · rw [if_neg hn]
      exact Or.inl rfl

/-- Where no directory was, an entry with nothing below it can be put, and the other places are as they
    were. -/
theorem at?_putAt {entry : Entry} (hentry : NothingBelow (some entry)) :
    ∀ {entries : Directory} {place other : Place},
      (∀ inner refusal, entries.at? place ≠ some (.directory inner refusal)) → other ≠ place →
      Alike (entries.at? other) ((entries.putAt entry place).at? other)
  | _, [], _, _, _ => Or.inl rfl
  | entries, [name], other, hold, hne => by
    rw [putAt]
    refine alike_of_lookup (fun n hn => by rw [lookup_set, if_neg hn])
      (nothingBelow_of_at? hold) ?_ hne
    rwa [lookup_set, if_pos rfl]
  | entries, name :: next :: rest, other, hold, hne => by
    rw [putAt]
    split
    · rename_i inner refusal hlookup
      refine alike_set_directory hlookup (fun hne' => at?_putAt hentry (fun inner' r h => ?_) hne') hne
      refine hold inner' r ?_
      rw [at?_cons, hlookup]
      exact h
    · exact Or.inl rfl
    · simp

/-- Where no directory was, an entry can be taken out, and the other places are as they were. -/
theorem at?_dropAt : ∀ {entries : Directory} {place other : Place},
    (∀ inner refusal, entries.at? place ≠ some (.directory inner refusal)) → other ≠ place →
      Alike (entries.at? other) ((entries.dropAt place).at? other)
  | entries, [], _, hold, _ => absurd rfl (hold entries none)
  | entries, [name], other, hold, hne => by
    rw [dropAt]
    refine alike_of_lookup (fun n hn => by rw [lookup_drop, if_neg hn])
      (nothingBelow_of_at? hold) ?_ hne
    rw [lookup_drop, if_pos rfl]
    exact nothingBelow_of_not_directory (by simp)
  | entries, name :: next :: rest, other, hold, hne => by
    rw [dropAt]
    split
    · rename_i inner refusal hlookup
      refine alike_set_directory hlookup (fun hne' => at?_dropAt (fun inner' r h => ?_) hne') hne
      refine hold inner' r ?_
      rw [at?_cons, hlookup]
      exact h
    · exact Or.inl rfl
    · simp

/-- At its place stands the entry that was put, or what stood there if it could not be put. -/
theorem at?_putAt_self (entry : Entry) : ∀ (entries : Directory) (place : Place),
    (entries.putAt entry place).at? place = some entry ∨
      (entries.putAt entry place).at? place = entries.at? place
  | _, [] => Or.inr rfl
  | entries, [name] => by
    refine Or.inl ?_
    rw [putAt, at?_cons, lookup_set, if_pos rfl]
    simp
  | entries, name :: next :: rest => by
    rw [putAt]
    split
    · rename_i inner refusal hlookup
      rw [at?_cons, at?_cons, lookup_set, if_pos rfl, hlookup]
      exact at?_putAt_self entry inner (next :: rest)
    · exact Or.inr rfl
    · simp

end Directory

/-! ## Changes of a tree -/

namespace FileTree

variable {t t' : FileTree} {names : String → Prop} {place : Place} {path : FilePath}

/-- A change leads from a plain tree to a plain one, and leaves all directories where they are, and their
    refusals and all files with certain names as they are. -/
structure Spares (names : String → Prop) (t t' : FileTree) : Prop where
  plain : t'.Plain
  current : t'.current = t.current
  directory : ∀ place, t.HasDirectory place → t'.HasDirectory place
  refusals : SameRefusals (some (.directory t.root)) (some (.directory t'.root))
  file : ∀ above name content, names name →
    (t.at? (above ++ [name]) = some (.file content) ↔ t'.at? (above ++ [name]) = some (.file content))

theorem Spares.imp {names' : String → Prop} (h : Spares names t t')
    (himp : ∀ name, names' name → names name) : Spares names' t t' :=
  ⟨h.plain, h.current, h.directory, h.refusals, fun above name content hn =>
    h.file above name content (himp name hn)⟩

/-- From a plain tree a change spares the files with certain names. -/
def SparesPlain (names : String → Prop) (t t' : FileTree) : Prop :=
  t.Plain → Spares names t t'

instance (names : String → Prop) : IsPreorder FileTree (SparesPlain names) where
  refl t h := ⟨h, rfl, fun _ => id, .refl _, fun _ _ _ _ => Iff.rfl⟩
  trans t t' t'' h h' hplain := by
    have h := h hplain
    have h' := h' h.plain
    exact ⟨h'.plain, h'.current.trans h.current,
      fun place hd => h'.directory place (h.directory place hd), h.refusals.trans h'.refusals,
      fun above name content hn =>
        (h.file above name content hn).trans (h'.file above name content hn)⟩

/-- A change of what stands at one place, where no directory stood. -/
theorem spares_of_alike (hplain : t'.Plain) (hcurrent : t'.current = t.current)
    (hold : ¬ t.HasDirectory place)
    (hrefusals : SameRefusals (some (.directory t.root)) (some (.directory t'.root)))
    (hother : ∀ other, other ≠ place → Alike (t.at? other) (t'.at? other))
    (hfile : ∀ above name content, names name → place = above ++ [name] →
      (t.at? place = some (.file content) ↔ t'.at? place = some (.file content))) :
    Spares names t t' := by
  refine ⟨hplain, hcurrent, fun other hd => ?_, hrefusals, fun above name content hn => ?_⟩
  · have hne : other ≠ place := fun he => hold (he ▸ hd)
    exact (hother other hne).directory hd
  · by_cases hp : above ++ [name] = place
    · rw [hp]
      exact hfile above name content hn hp.symm
    · exact (hother _ hp).file_iff content

/-- An entry is put where no directory was. -/
theorem spares_put (h : t.Plain) (hnames : ∀ name ∈ place, IsEntryName name)
    (hold : ¬ t.HasDirectory place) {entry : Entry} (hentry : entry.Plain)
    (hbelow : Directory.NothingBelow (some entry)) (hwilling : SameRefusals (some entry) none)
    (hfile : ∀ above name content, names name → place = above ++ [name] →
      (t.at? place = some (.file content) ↔ entry = .file content)) :
    Spares names t { t with root := t.root.putAt entry place } := by
  have hnone : ∀ inner refusal, t.root.at? place ≠ some (.directory inner refusal) :=
    fun inner refusal hi => hold ⟨inner, refusal, hi⟩
  refine spares_of_alike (hentry.putAt h hnames) rfl hold
    (Directory.sameRefusals_putAt hwilling hnone) (fun _ => Directory.at?_putAt hbelow hnone) ?_
  intro above name content hn hp
  show t.root.at? place = _ ↔ (t.root.putAt entry place).at? place = _
  rcases Directory.at?_putAt_self entry t.root place with hself | hself
  · rw [hself, Option.some.injEq]
    exact hfile above name content hn hp
  · rw [hself]

/-- A file is taken out. -/
theorem spares_drop (h : t.Plain) (hold : ¬ t.HasDirectory place)
    (hname : ∀ above name, names name → place ≠ above ++ [name]) :
    Spares names t { t with root := t.root.dropAt place } :=
  have hnone : ∀ inner refusal, t.root.at? place ≠ some (.directory inner refusal) :=
    fun inner refusal hi => hold ⟨inner, refusal, hi⟩
  spares_of_alike h.dropAt rfl hold (Directory.sameRefusals_dropAt (Entry.Plain.iff_built.1 h) hnone)
    (fun _ => Directory.at?_dropAt hnone) fun above name _ hn hp => absurd hp (hname above name hn)

/-! ## Paths of changes -/

/-- A path with a root and names that can stand between slashes. -/
structure FromRoot (path : FilePath) : Prop where
  absolute : path.isAbsolute = true
  parts : ∀ name ∈ path.names, IsPart name

/-- A path that was read from a text with a root. -/
theorem fromRoot_ofText {s : String} (h : (FilePath.ofText s).isAbsolute = true) :
    FromRoot (.ofText s) :=
  ⟨h, fun _ hname => FilePath.isPart_of_mem_ofText hname⟩

theorem FromRoot.parent (h : FromRoot path) : FromRoot path.parent :=
  ⟨h.absolute, fun name hn => h.parts name ((List.dropLast_sublist _).subset hn)⟩

/-- The place of an entry, and what is known of it: its names are names that entries can have, and it is
    the place of a directory or has the last name of a path. -/
structure EndsAs (t : FileTree) (path : FilePath) (place : Place) : Prop where
  names : ∀ name ∈ place, IsEntryName name
  ends : t.HasDirectory place ∨ ∃ above name, place = above ++ [name] ∧ path.names.getLast? = some name

theorem placeOf_ends (h : t.Plain) (hpath : FromRoot path) (hp : t.placeOf path = .ok place) :
    EndsAs t path place := by
  unfold placeOf at hp
  rw [if_pos hpath.absolute] at hp
  obtain ⟨hnames, hends⟩ := follow_ends h _ (hasDirectory_nil t) (by simp) hpath.parts hp
  exact ⟨hnames, hends⟩

theorem ownPlace_ends (h : t.Plain) (hpath : FromRoot path) (hp : t.ownPlace path = .ok place) :
    EndsAs t path place := by
  unfold ownPlace at hp
  split at hp
  · exact placeOf_ends h hpath hp
  · rename_i hlast
    simp only [Bool.or_eq_true, List.isEmpty_iff, beq_iff_eq, not_or] at hlast
    obtain ⟨hne, hup⟩ := hlast
    have hname : path.names.getLast? = some path.name := by
      unfold FilePath.name
      rw [List.getLast?_eq_some_getLast hne]
      rfl
    have hentry : IsEntryName path.name :=
      ⟨hpath.parts _ (List.mem_of_getLast? hname), hup⟩
    cases habove : t.placeOf path.parent with
    | error e => rw [habove] at hp; cases hp
    | ok above =>
      have hends := placeOf_ends h hpath.parent habove
      have hplace : place = above ++ [path.name] := by
        rw [habove] at hp
        simp only [bind, Except.bind] at hp
        split at hp
        · exact (Except.ok.inj hp).symm
        · cases hp
        · cases hp
      subst hplace
      exact ⟨List.forall_mem_append.2 ⟨hends.names, List.forall_mem_singleton.2 hentry⟩,
        Or.inr ⟨above, path.name, rfl, hname⟩⟩

/-- Steps to a directory lead to it after a change that leaves all directories where they are. -/
theorem follow_spared (h : t.Plain) (hs : Spares names t t') (links : Nat) :
    ∀ {steps : List String} {here place : Place}, t.follow links here steps = .ok place →
      t.HasDirectory place → t'.follow links here steps = .ok place
  | [], here, place, hf, _ => by rw [follow] at hf ⊢; exact hf
  | step :: rest, here, place, hf, hd => by
    by_cases hup : step = ".."
    · rw [follow, if_pos (by simp [hup])] at hf ⊢
      exact follow_spared h hs links hf hd
    · -- What is no directory behind the step cannot be the place of one.
      have stop : ∀ {e : TreeError}, ¬ t.HasDirectory (here ++ [step]) →
          (if rest.isEmpty then .ok (here ++ [step]) else .error e) ≠ Except.ok place := by
        intro e hnot he
        split at he
        · cases he; exact hnot hd
        · cases he
      rw [follow_cons h _ _ hup] at hf
      rw [follow_cons hs.plain _ _ hup]
      split at hf
      · rename_i hnone
        refine absurd hf (stop ?_)
        rintro ⟨entries, refusal, he⟩
        rw [hnone] at he
        cases he
      · rename_i entries refusal he
        obtain ⟨entries', refusal', he'⟩ := hs.directory _ ⟨entries, refusal, he⟩
        rw [he']
        exact follow_spared h hs links hf hd
      · rename_i e hnot he
        refine absurd hf (stop ?_)
        rintro ⟨entries, refusal, hd'⟩
        exact hnot entries refusal (Option.some.inj (he.symm.trans hd'))

/-- A path to a directory leads to it after a change that leaves all directories where they are. -/
theorem placeOf_spared (h : t.Plain) (hs : Spares names t t') (hp : t.placeOf path = .ok place)
    (hd : t.HasDirectory place) : t'.placeOf path = .ok place := by
  unfold placeOf at hp ⊢
  rw [hs.current]
  split at hp
  · exact follow_spared h hs _ hp hd
  · cases hp

/-- A directory stays one. -/
theorem isDirectory_spared (h : t.Plain) (hs : Spares names t t') (hd : t.isDirectory path = true) :
    t'.isDirectory path = true := by
  obtain ⟨place, hp, hd⟩ := isDirectory_iff.1 hd
  exact isDirectory_iff.2 ⟨place, placeOf_spared h hs hp hd, hs.directory place hd⟩

/-! ## Changes of single files -/

/-- The names that a change of a file spares: all but its own. -/
def OtherThan (path : FilePath) (name : String) : Prop :=
  path.names.getLast? ≠ some name

/-- Looking at an entry changes nothing. -/
theorem run_examine (t : FileTree) (path : FilePath) : (examine path).run.run t =
    ((t.ownPlace path).map fun place => (place, t.at? place), t) := by
  unfold examine
  rw [run_bind, run_get]
  simp only
  rw [run_bind]
  cases t.ownPlace path <;> rfl

/-- Making a directory spares all files. -/
theorem spares_makeDirectory (hpath : FromRoot path) :
    Keeps (SparesPlain names) (makeDirectory path) := by
  intro t h
  unfold makeDirectory
  rw [run_bind, run_examine]
  cases hp : t.ownPlace path with
  | error e => exact refl_of (SparesPlain names) t h
  | ok place =>
    have hends := ownPlace_ends h hpath hp
    simp only [Except.map]
    cases he : t.at? place with
    | some e => exact refl_of (SparesPlain names) t h
    | none =>
      have hold : ¬ t.HasDirectory place := by rintro ⟨entries, refusal, hd⟩; rw [he] at hd; cases hd
      refine spares_put h hends.names hold ?_ Directory.nothingBelow_empty .empty ?_
      · exact .directory (by simp) (by simp) (by simp)
      · intro above name content _ _
        simp [he]

theorem spares_ensureDirectory (hpath : FromRoot path) :
    Keeps (SparesPlain names) (ensureDirectory path) := by
  unfold ensureDirectory
  refine (spares_makeDirectory hpath).tryCatch fun e => keeps_get.bind fun t => ?_
  split
  · exact keeps_throw e
  · exact keeps_pure ()

theorem spares_makeAll : ∀ (above : Nat) {path : FilePath}, FromRoot path →
    Keeps (SparesPlain names) (makeAll path above)
  | 0, path, hpath => spares_ensureDirectory hpath
  | above + 1, path, hpath => by
    unfold makeAll
    refine (spares_makeDirectory hpath).tryCatch fun e => ?_
    split
    · exact (spares_makeAll above hpath.parent).bind fun _ => spares_ensureDirectory hpath
    · refine keeps_get.bind fun t => ?_
      split
      · exact keeps_throw e
      · exact keeps_pure ()

theorem run_write (t : FileTree) (path : FilePath) (content : ByteArray) :
    (write path content).run.run t =
      match t.placeOf path with
      | .error e => (.error e, t)
      | .ok place =>
        match t.at? place with
        | some (.directory ..) => (.error .isDirectory, t)
        | _ => (.ok (), { t with root := t.root.putAt (.file content) place }) := by
  unfold write
  rw [run_bind, run_get]
  simp only
  rw [run_bind]
  cases t.placeOf path with
  | error e => rfl
  | ok place =>
    show (match t.at? place with
      | some (.directory ..) => throw .isDirectory
      | _ => put place (.file content) : Change Unit).run.run t = _
    simp only
    cases t.at? place with
    | none => rfl
    | some e => cases e <;> rfl

/-- An entry that is named by a path without being a directory has the last name of the path. -/
theorem EndsAs.not_other (h : EndsAs t path place) (hold : ¬ t.HasDirectory place)
    {above : Place} {name : String} (hn : OtherThan path name) : place ≠ above ++ [name] := by
  rintro rfl
  rcases h.ends with hd | ⟨above', name', heq, hlast⟩
  · exact hold hd
  · have hname : name = name' := by simpa using congrArg List.getLast? heq
    exact hn (hname ▸ hlast)

/-- Writing a file spares all files with other names. -/
theorem spares_write (hpath : FromRoot path) (content : ByteArray) :
    Keeps (SparesPlain (OtherThan path)) (write path content) := by
  intro t h
  have hsame : Spares (OtherThan path) t t := refl_of (SparesPlain _) t h
  rw [run_write]
  cases hp : t.placeOf path with
  | error e => exact hsame
  | ok place =>
    have hends := placeOf_ends h hpath hp
    have hput : ¬ t.HasDirectory place → Spares (OtherThan path) t
        { t with root := t.root.putAt (.file content) place } := fun hold =>
      spares_put h hends.names hold (.file content)
        (Directory.nothingBelow_of_not_directory (by simp)) (.of_not_directory (by simp))
        fun above name _ hn hplace => absurd hplace (hends.not_other hold hn)
    simp only
    split
    · exact hsame
    · rename_i hnot
      refine hput ?_
      rintro ⟨entries, refusal, hd⟩
      exact hnot entries refusal hd

/-- Writing a file and the directories above it spares all files with other names. -/
theorem spares_writeBelow (hpath : FromRoot path) (content : ByteArray) :
    Keeps (SparesPlain (OtherThan path)) (writeBelow path content) :=
  (spares_makeAll _ hpath.parent).bind fun _ => spares_write hpath content

/-- Takes a file away; a directory is refused. -/
def removeFile (path : FilePath) : Change Unit := do
  match ← examine path with
  | (_, some (.directory ..)) => throw .isDirectory
  | _ => delete path

theorem run_delete (t : FileTree) (path : FilePath) : (delete path).run.run t =
    match t.ownPlace path with
    | .error e => (.error e, t)
    | .ok place =>
      match t.at? place with
      | some _ => (.ok (), { t with root := t.root.dropAt place })
      | none => (.error .missing, t) := by
  unfold delete
  rw [run_bind, run_examine]
  cases t.ownPlace path with
  | error e => rfl
  | ok place =>
    simp only [Except.map]
    cases t.at? place <;> rfl

/-- Removing a file spares all files with other names. -/
theorem spares_removeFile (hpath : FromRoot path) :
    Keeps (SparesPlain (OtherThan path)) (removeFile path) := by
  intro t h
  have hsame : Spares (OtherThan path) t t := refl_of (SparesPlain _) t h
  unfold removeFile
  rw [run_bind, run_examine]
  cases hp : t.ownPlace path with
  | error e => exact hsame
  | ok place =>
    have hends := ownPlace_ends h hpath hp
    have hdrop : ¬ t.HasDirectory place →
        Spares (OtherThan path) t ((delete path).run.run t).2 := by
      intro hold
      rw [run_delete, hp]
      simp only
      split
      · exact spares_drop h hold fun above name hn => hends.not_other hold hn
      · exact hsame
    simp only [Except.map]
    split
    · exact hsame
    · rename_i hnot
      refine hdrop ?_
      rintro ⟨entries, refusal, hd⟩
      exact hnot place entries refusal (by rw [hd])

/-! ## Different names -/

/-- The names in every directory are different. -/
def Distinct (t : FileTree) : Prop :=
  Entry.Built (fun _ => True) (fun _ => True) (.directory t.root)

/-- A change leaves different names different. -/
def StaysDistinct (t t' : FileTree) : Prop :=
  t.Distinct → t'.Distinct

instance : IsPreorder FileTree StaysDistinct where
  refl _ := id
  trans _ _ _ h h' := h' ∘ h

theorem distinct_put {entry : Entry} (he : entry.Built (fun _ => True) fun _ => True) (place : Place) :
    Keeps StaysDistinct (put place entry) :=
  fun _ h => he.putAt h fun _ _ => trivial

theorem distinct_takeOut (place : Place) : Keeps StaysDistinct (takeOut place) :=
  fun _ h => h.dropAt

theorem distinct_examine (path : FilePath) : Keeps StaysDistinct (examine path) := by
  intro t
  rw [run_examine]
  exact id

theorem distinct_makeDirectory (path : FilePath) : Keeps StaysDistinct (makeDirectory path) := by
  refine (distinct_examine path).bind fun found => ?_
  obtain ⟨place, entry | entry⟩ := found
  · exact distinct_put (.directory (by simp) (by simp) (by simp)) place
  · exact keeps_throw _

theorem distinct_ensureDirectory (path : FilePath) : Keeps StaysDistinct (ensureDirectory path) := by
  refine (distinct_makeDirectory path).tryCatch fun e => keeps_get.bind fun t => ?_
  split
  · exact keeps_throw e
  · exact keeps_pure ()

theorem distinct_makeAll : ∀ (path : FilePath) (above : Nat), Keeps StaysDistinct (makeAll path above)
  | path, 0 => distinct_ensureDirectory path
  | path, above + 1 => by
    unfold makeAll
    refine (distinct_makeDirectory path).tryCatch fun e => ?_
    split
    · exact (distinct_makeAll path.parent above).bind fun _ => distinct_ensureDirectory path
    · refine keeps_get.bind fun t => ?_
      split
      · exact keeps_throw e
      · exact keeps_pure ()

theorem distinct_write (path : FilePath) (content : ByteArray) :
    Keeps StaysDistinct (write path content) := by
  intro t
  rw [run_write]
  cases t.placeOf path with
  | error e => exact id
  | ok place =>
    simp only
    split
    · exact id
    · exact distinct_put (.file content) place t

theorem distinct_delete (path : FilePath) : Keeps StaysDistinct (delete path) := by
  refine (distinct_examine path).bind fun found => ?_
  obtain ⟨place, entry | entry⟩ := found
  · exact keeps_throw _
  · exact distinct_takeOut place

theorem distinct_removeFile (path : FilePath) : Keeps StaysDistinct (removeFile path) := by
  refine (distinct_examine path).bind fun found => ?_
  split
  · exact keeps_throw _
  · exact distinct_delete path

end FileTree

end RouteAtlas
