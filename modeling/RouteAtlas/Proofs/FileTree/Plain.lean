/-
  RouteAtlas: plain trees.

  A plain tree has files and directories and no links; every entry has a name of its own that a path can
  spell.

  * `Entry.Plain` is plain, by what the entry is; `Entry.Plain.at?` is that everything in it is plain;
  * `FileTree.Named` says the same of the names alone, in a tree that may have links;
  * `FileTree.follow_at?`: in a plain tree steps lead to what stands behind them;
  * `FileTree.follow_ends`: steps lead to a directory, or to a place with the name of the last step.
-/
import RouteAtlas.Proofs.FilePath
import RouteAtlas.Proofs.FileTree.Entries

namespace RouteAtlas

/-! ## Entries -/

/-- A name that an entry of a directory can have. -/
structure IsEntryName (name : String) : Prop extends IsPart name where
  ne_above : name ≠ ".."

instance (name : String) : Decidable (IsEntryName name) :=
  decidable_of_iff (IsPart name ∧ name ≠ "..")
    ⟨fun ⟨hpart, habove⟩ => ⟨hpart, habove⟩, fun h => ⟨h.toIsPart, h.ne_above⟩⟩

/-- Files, and directories of them under names of their own, at any depth. -/
inductive Entry.Plain : Entry → Prop
  | file (content : ByteArray) : Plain (.file content)
  | directory {entries : Directory} {refusal : Option String} : (entries.map Prod.fst).Nodup →
      (∀ e ∈ entries, IsEntryName e.1) → (∀ e ∈ entries, Plain e.2) →
      Plain (.directory entries refusal)

namespace Entry.Plain

variable {entries : Directory} {refusal : Option String} {name : String} {e entry : Entry}

/-- What is plain is built of names that entries can have, and of no links. -/
theorem iff_built : Plain e ↔ Entry.Built IsEntryName (fun _ => False) e := by
  constructor
  · intro h
    induction h with
    | file content => exact .file content
    | directory hnodup hnames _ ih => exact .directory hnodup hnames ih
  · intro h
    induction h with
    | file content => exact .file content
    | link hlink => exact hlink.elim
    | directory hnodup hnames _ ih => exact .directory hnodup hnames ih

/-- A directory is plain by what stands in it. -/
theorem directory_iff : Plain (.directory entries refusal) ↔ (entries.map Prod.fst).Nodup ∧
    (∀ e ∈ entries, IsEntryName e.1) ∧ ∀ e ∈ entries, Plain e.2 :=
  ⟨fun | .directory hnodup hnames hplain => ⟨hnodup, hnames, hplain⟩,
    fun ⟨hnodup, hnames, hplain⟩ => .directory hnodup hnames hplain⟩

theorem nodup (h : Plain (.directory entries refusal)) : (entries.map Prod.fst).Nodup :=
  (iff_built.1 h).nodup

theorem name_of_mem (h : Plain (.directory entries refusal)) (hmem : (name, e) ∈ entries) :
    IsEntryName name :=
  (iff_built.1 h).name_of_mem hmem

theorem of_mem (h : Plain (.directory entries refusal)) (hmem : (name, e) ∈ entries) : Plain e :=
  iff_built.2 ((iff_built.1 h).of_mem hmem)

/-- In a plain directory the entry under a name is the one that it has with the name. -/
theorem lookup_eq_some_iff (h : Plain (.directory entries refusal)) :
    entries.lookup name = some e ↔ (name, e) ∈ entries :=
  Directory.lookup_eq_some_iff h.nodup

/-- Everything in a plain entry is plain, and has names that entries can have. -/
theorem at? (h : Plain entry) {place : Place} (he : entry.at? place = some e) :
    Plain e ∧ ∀ name ∈ place, IsEntryName name :=
  ((iff_built.1 h).at? he).imp_left iff_built.2

/-- A plain entry can be put at any place with names that entries can have. -/
theorem putAt (he : Plain entry) {place : Place} (h : Plain (.directory entries refusal))
    (hnames : ∀ name ∈ place, IsEntryName name) :
    Plain (.directory (entries.putAt entry place) refusal) :=
  iff_built.2 ((iff_built.1 he).putAt (iff_built.1 h) hnames)

/-- What is left when an entry is taken out is plain. -/
theorem dropAt {place : Place} (h : Plain (.directory entries refusal)) :
    Plain (.directory (entries.dropAt place) refusal) :=
  iff_built.2 (iff_built.1 h).dropAt

end Entry.Plain

/-! ## Trees -/

namespace FileTree

variable {t : FileTree}

/-- What stands in a tree stands below its root. -/
theorem at?_root (t : FileTree) (place : Place) : (Entry.directory t.root).at? place = t.at? place := by
  cases place <;> rfl

/-- Everything in the tree is plain. -/
def Plain (t : FileTree) : Prop :=
  Entry.Plain (.directory t.root)

/-- Every entry has a name of its own that a path can spell; links may lead anywhere. -/
def Named (t : FileTree) : Prop :=
  Entry.Built IsEntryName (fun _ => True) (.directory t.root)

theorem Named.entry (h : t.Named) {place : Place} {e : Entry} (he : t.at? place = some e) :
    e.Built IsEntryName (fun _ => True) ∧ ∀ name ∈ place, IsEntryName name :=
  Entry.Built.at? h ((t.at?_root place).trans he)

/-- A directory stands at a place. -/
def HasDirectory (t : FileTree) (place : Place) : Prop :=
  ∃ entries refusal, t.at? place = some (.directory entries refusal)

theorem hasDirectory_nil (t : FileTree) : t.HasDirectory [] := ⟨t.root, none, rfl⟩

theorem hasDirectory_above {above place : Place} {e : Entry} (hne : place ≠ [])
    (h : t.at? (above ++ place) = some e) : t.HasDirectory above :=
  Directory.directory_above hne h

/-- No directory stands at a file or below one. -/
theorem not_hasDirectory_of_file {above place : Place} {content : ByteArray}
    (hfile : t.at? above = some (.file content)) (habove : above <+: place) :
    ¬ t.HasDirectory place := by
  rintro ⟨entries, refusal, hd⟩
  obtain ⟨names, rfl⟩ := habove
  cases names with
  | nil =>
    rw [List.append_nil, hfile] at hd
    cases hd
  | cons name names =>
    obtain ⟨inner, _, hinner⟩ := hasDirectory_above (List.cons_ne_nil name names) hd
    rw [hfile] at hinner
    cases hinner

theorem HasDirectory.dropLast {place : Place} (h : t.HasDirectory place) :
    t.HasDirectory place.dropLast := by
  obtain ⟨entries, refusal, he⟩ := h
  rcases List.eq_nil_or_concat' place with rfl | ⟨above, name, rfl⟩
  · exact hasDirectory_nil t
  · rw [List.dropLast_concat]
    exact hasDirectory_above (by simp) he

theorem isDirectory_iff {path : FilePath} :
    t.isDirectory path = true ↔ ∃ place, t.placeOf path = .ok place ∧ t.HasDirectory place := by
  unfold isDirectory
  constructor
  · intro h
    split at h
    · rename_i place hp
      split at h
      · rename_i entries refusal he; exact ⟨place, hp, entries, refusal, he⟩
      · cases h
    · cases h
  · rintro ⟨place, hp, entries, refusal, he⟩
    rw [hp]
    simp only [he]

namespace Plain

theorem entry (h : t.Plain) {place : Place} {e : Entry} (he : t.at? place = some e) :
    e.Plain ∧ ∀ name ∈ place, IsEntryName name :=
  Entry.Plain.at? h ((t.at?_root place).trans he)

theorem not_link (h : t.Plain) {place : Place} {target : String} :
    t.at? place ≠ some (.link target) := by
  intro he
  cases (h.entry he).1

end Plain

/-- The step to a name in a plain tree. -/
theorem follow_cons (h : t.Plain) (links : Nat) (here : Place) {step : String} (hstep : step ≠ "..")
    (rest : List String) : t.follow links here (step :: rest) =
      match t.at? (here ++ [step]) with
      | none => if rest.isEmpty then .ok (here ++ [step]) else .error .missing
      | some (.directory ..) => t.follow links (here ++ [step]) rest
      | some _ => if rest.isEmpty then .ok (here ++ [step]) else .error .notDirectory := by
  rw [follow, if_neg (by simpa using hstep)]
  simp only
  cases he : t.at? (here ++ [step]) with
  | none => rfl
  | some e =>
    cases e with
    | link target => exact absurd he h.not_link
    | file content => rfl
    | directory entries refusal => rfl

/-- Steps along directories lead to what stands behind them, if this is no link. -/
theorem follow_along (links : Nat) : ∀ {steps : List String} {here : Place} {e : Entry},
    (∀ step ∈ steps, step ≠ "..") → (∀ target, e ≠ .link target) → t.at? (here ++ steps) = some e →
      t.follow links here steps = .ok (here ++ steps)
  | [], here, _, _, _, _ => by rw [follow, List.append_nil]
  | step :: rest, here, e, hsteps, hlink, he => by
    obtain ⟨hstep, hrest⟩ := List.forall_mem_cons.1 hsteps
    have hsplit : here ++ step :: rest = here ++ [step] ++ rest := by simp
    rw [hsplit] at he
    rw [follow, if_neg (by simpa using hstep)]
    simp only
    cases rest with
    | nil =>
      rw [List.append_nil] at he
      rw [he]
      cases e with
      | directory entries refusal => simp [follow]
      | file content => rfl
      | link target => exact absurd rfl (hlink target)
    | cons next rest =>
      obtain ⟨entries, refusal, hentries⟩ := hasDirectory_above (List.cons_ne_nil next rest) he
      rw [hentries, hsplit]
      exact follow_along links hrest hlink he

/-- In a plain tree steps lead to what stands behind them. -/
theorem follow_at? (h : t.Plain) (links : Nat) {steps : List String} {here : Place} {e : Entry}
    (he : t.at? (here ++ steps) = some e) : t.follow links here steps = .ok (here ++ steps) :=
  follow_along links (fun step hstep => ((h.entry he).2 step (List.mem_append_right _ hstep)).ne_above)
    (fun _ hlink => h.not_link (hlink ▸ he)) he

/-- The names of a place lead to the file that stands there. -/
theorem read_place {place : Place} {content : ByteArray} (hplace : ∀ name ∈ place, IsEntryName name)
    (he : t.at? place = some (.file content)) : t.read ⟨"/", place⟩ = .ok content := by
  have hat : t.at? ([] ++ place) = some (.file content) := he
  have hp : t.placeOf ⟨"/", place⟩ = .ok place :=
    follow_along linkLimit (fun name hname => (hplace name hname).ne_above) (by simp) hat
  unfold read
  rw [hp]
  simp only [bind, Except.bind, he]

/-- The text of a place leads to the file that stands there. -/
theorem read_placeText (h : t.Plain) {place : Place} {content : ByteArray}
    (he : t.at? place = some (.file content)) : t.read (.ofText place.text) = .ok content := by
  have hnames := (h.entry he).2
  rw [FilePath.ofText_placeText fun name hname => (hnames name hname).toIsPart]
  exact read_place hnames he

/-- Steps lead to a directory, or to a place with the name of the last step. -/
theorem follow_ends (h : t.Plain) (links : Nat) :
    ∀ {steps : List String} {here place : Place}, t.HasDirectory here →
      (∀ name ∈ here, IsEntryName name) → (∀ step ∈ steps, IsPart step) →
      t.follow links here steps = .ok place →
      (∀ name ∈ place, IsEntryName name) ∧
        (t.HasDirectory place ∨ ∃ above name, place = above ++ [name] ∧ steps.getLast? = some name)
  | [], here, place, hhere, hnames, _, hf => by
    rw [follow] at hf
    cases hf
    exact ⟨hnames, Or.inl hhere⟩
  | step :: rest, here, place, hhere, hnames, hsteps, hf => by
    obtain ⟨hstep, hrest⟩ := List.forall_mem_cons.1 hsteps
    -- A name that ends the rest of the steps ends them all.
    have later : ∀ {here' : Place}, t.HasDirectory here' → (∀ name ∈ here', IsEntryName name) →
        t.follow links here' rest = .ok place →
        (∀ name ∈ place, IsEntryName name) ∧ (t.HasDirectory place ∨
          ∃ above name, place = above ++ [name] ∧ (step :: rest).getLast? = some name) := by
      intro here' hhere' hnames' hf'
      obtain ⟨hplace, hends⟩ := follow_ends h links hhere' hnames' hrest hf'
      refine ⟨hplace, hends.imp_right ?_⟩
      rintro ⟨above, name, rfl, hlast⟩
      exact ⟨above, name, rfl, by rw [List.getLast?_cons, hlast]; rfl⟩
    by_cases hup : step = ".."
    · rw [follow, if_pos (by simp [hup])] at hf
      exact later hhere.dropLast
        (fun name hn => hnames name ((List.dropLast_sublist here).subset hn)) hf
    · have hplace : ∀ name ∈ here ++ [step], IsEntryName name :=
        List.forall_mem_append.2 ⟨hnames, List.forall_mem_singleton.2 ⟨hstep, hup⟩⟩
      -- Without a directory behind the step, it is the last one.
      have stop : ∀ {e : TreeError},
          (if rest.isEmpty then .ok (here ++ [step]) else .error e) = Except.ok place →
          (∀ name ∈ place, IsEntryName name) ∧ (t.HasDirectory place ∨
            ∃ above name, place = above ++ [name] ∧ (step :: rest).getLast? = some name) := by
        intro e he
        split at he
        · rename_i hempty
          cases he
          exact ⟨hplace, Or.inr ⟨here, step, rfl, by simp [List.isEmpty_iff.1 hempty]⟩⟩
        · cases he
      rw [follow_cons h _ _ hup] at hf
      split at hf
      · exact stop hf
      · rename_i entries refusal he
        exact later ⟨entries, refusal, he⟩ hplace hf
      · exact stop hf

end FileTree

end RouteAtlas
