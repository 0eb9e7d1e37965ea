/-
  RouteAtlas: directories that refuse to be read.

  * `Entry.mem_refusals_iff` says which directories a walk finds refusing: those on a way without names
    that are skipped;
  * `SameRefusals before after`: in two entries, and below them, a walk finds the same refusals.  It stays
    so where entries are put and taken out that refuse nothing (`sameRefusals_putAt`,
    `sameRefusals_dropAt`).
-/
import RouteAtlas.Proofs.FileTree.Entries

namespace RouteAtlas

/-! ## What a walk finds refusing -/

section
variable {skipped : List String} {place p : Place} {entries : Directory} {refusal : Option String}
  {reason : String}

theorem Directory.refusals_eq (skipped : List String) (place : Place) (entries : Directory) :
    Directory.refusals skipped place entries = entries.flatMap fun e =>
      if skipped.contains e.1 then [] else e.2.refusals skipped (place ++ [e.1]) := by
  induction entries with
  | nil => rfl
  | cons e entries ih => rw [Directory.refusals, ih, List.flatMap_cons]

theorem Entry.refusals_directory (skipped : List String) (place : Place) (entries : Directory)
    (refusal : Option String) : (Entry.directory entries refusal).refusals skipped place =
      refusal.toList.map (Prod.mk place) ++ Directory.refusals skipped place entries := by
  rw [Entry.refusals]

theorem Entry.refusals_of_not_directory {e : Entry} (h : ∀ entries refusal, e ≠ .directory entries refusal)
    (skipped : List String) (place : Place) : e.refusals skipped place = [] := by
  cases e with
  | directory entries refusal => exact absurd rfl (h entries refusal)
  | file content => rfl
  | link target => rfl

/-- **What a walk finds refusing** are the directories that refuse, behind names that are not skipped. -/
theorem Entry.mem_refusals_iff {names links : String → Prop} {entry : Entry}
    (h : entry.Built names links) : ∀ {place p : Place}, (p, reason) ∈ entry.refusals skipped place ↔
      ∃ above inner, p = place ++ above ∧ (∀ n ∈ above, n ∉ skipped) ∧
        entry.at? above = some (.directory inner (some reason)) := by
  induction h with
  | file content =>
    intro place p
    refine iff_of_false List.not_mem_nil ?_
    rintro ⟨_ | ⟨n, above⟩, inner, -, -, hat⟩ <;> cases hat
  | link hlink =>
    intro place p
    refine iff_of_false List.not_mem_nil ?_
    rintro ⟨_ | ⟨n, above⟩, inner, -, -, hat⟩ <;> cases hat
  | @directory entries refusal hnodup hnames hbuilt ih =>
    intro place p
    rw [Entry.refusals_directory, List.mem_append, Directory.refusals_eq, List.mem_flatMap]
    constructor
    · rintro (hown | ⟨⟨n, e⟩, hmem, hbelow⟩)
      · obtain ⟨r, hr, heq⟩ := List.mem_map.1 hown
        cases heq
        exact ⟨[], entries, by simp, by simp, by rw [Entry.at?_nil, Option.mem_toList.1 hr]⟩
      · split at hbelow
        · cases hbelow
        · rename_i hseen
          obtain ⟨above, inner, rfl, habove, hat⟩ := (ih _ hmem).1 hbelow
          refine ⟨n :: above, inner, by simp, List.forall_mem_cons.2 ⟨by simpa using hseen, habove⟩, ?_⟩
          rw [Entry.at?_directory (List.cons_ne_nil n above), Directory.at?_cons,
            (Directory.lookup_eq_some_iff hnodup).2 hmem]
          exact hat
    · rintro ⟨_ | ⟨n, above⟩, inner, rfl, hseen, hat⟩
      · rw [Entry.at?_nil] at hat
        cases hat
        exact Or.inl (by simp)
      · rw [Entry.at?_directory (List.cons_ne_nil n above), Directory.at?_cons] at hat
        obtain ⟨e, hlookup, hat⟩ := Option.bind_eq_some_iff.1 hat
        obtain ⟨hn, habove⟩ := List.forall_mem_cons.1 hseen
        refine Or.inr ⟨(n, e), Directory.mem_of_lookup hlookup, ?_⟩
        rw [if_neg (by simpa using hn)]
        exact (ih _ (Directory.mem_of_lookup hlookup)).2 ⟨above, inner, by simp, habove, hat⟩

end

/-! ## The same refusals -/

/-- The refusals that a walk finds in what may stand at a place. -/
def refusalsIn (skipped : List String) (place : Place) (entry : Option Entry) : List (Place × String) :=
  entry.elim [] fun e => e.refusals skipped place

/-- A walk finds the same refusals in two entries, wherever below them it begins. -/
def SameRefusals (before after : Option Entry) : Prop :=
  ∀ below skipped place, refusalsIn skipped place (before.bind fun e => e.at? below) =
    refusalsIn skipped place (after.bind fun e => e.at? below)

namespace SameRefusals

variable {before after last : Option Entry} {entries : Directory} {refusal : Option String}
  {name : String} {e : Entry}

theorem refl (before : Option Entry) : SameRefusals before before := fun _ _ _ => rfl

theorem symm (h : SameRefusals before after) : SameRefusals after before :=
  fun below skipped place => (h below skipped place).symm

theorem trans (h : SameRefusals before after) (h' : SameRefusals after last) :
    SameRefusals before last :=
  fun below skipped place => (h below skipped place).trans (h' below skipped place)

/-- What is no directory refuses nothing. -/
theorem of_not_directory (h : ∀ entries refusal, before ≠ some (.directory entries refusal)) :
    SameRefusals before none := by
  intro below skipped place
  cases before with
  | none => rfl
  | some e =>
    have hnot : ∀ entries refusal, e ≠ .directory entries refusal := fun entries refusal he =>
      h entries refusal (he ▸ rfl)
    cases below with
    | nil =>
      rw [Option.bind_some, Entry.at?_nil]
      exact Entry.refusals_of_not_directory hnot skipped place
    | cons n rest =>
      cases e with
      | directory entries refusal => exact absurd rfl (hnot entries refusal)
      | file content => rfl
      | link target => rfl

/-- An empty directory that can be read refuses nothing. -/
theorem empty : SameRefusals (some (.directory [])) none := by
  intro below skipped place
  cases below with
  | nil => simp [refusalsIn, Entry.refusals, Directory.refusals]
  | cons n rest =>
    rw [Option.bind_some, Entry.at?_directory (List.cons_ne_nil n rest), Directory.at?_cons]
    rfl

/-- Two directories refuse the same if their entries do, and lists of them are walked alike. -/
theorem directory {entries' : Directory}
    (hall : ∀ skipped place,
      Directory.refusals skipped place entries = Directory.refusals skipped place entries')
    (hone : ∀ n, SameRefusals (entries.lookup n) (entries'.lookup n)) :
    SameRefusals (some (.directory entries refusal)) (some (.directory entries' refusal)) := by
  rintro (_ | ⟨n, rest⟩) skipped place
  · show Entry.refusals .. = Entry.refusals ..
    rw [Entry.refusals_directory, Entry.refusals_directory, hall]
  · have hne := List.cons_ne_nil n rest
    rw [Option.bind_some, Option.bind_some, Entry.at?_directory hne, Entry.at?_directory hne,
      Directory.at?_cons, Directory.at?_cons]
    exact hone n rest skipped place

/-- A walk finds the same refusals in entries that are set to others with the same refusals. -/
theorem refusals_set (h : SameRefusals (entries.lookup name) (some e)) (skipped : List String)
    (place : Place) :
    Directory.refusals skipped place (entries.set name e) =
      Directory.refusals skipped place entries := by
  have hname : refusalsIn skipped (place ++ [name]) (entries.lookup name) =
      e.refusals skipped (place ++ [name]) := by
    simpa [refusalsIn] using h [] skipped (place ++ [name])
  clear h
  induction entries with
  | nil => simp [Directory.set, Directory.refusals, ← hname, refusalsIn]
  | cons first rest ih =>
    obtain ⟨n, old⟩ := first
    rw [Directory.lookup_cons_if] at hname
    rw [Directory.set]
    by_cases hn : n = name
    · subst hn
      rw [if_pos rfl] at hname
      rw [if_pos (by simp), Directory.refusals, Directory.refusals, ← hname]
      rfl
    · rw [if_neg (Ne.symm hn)] at hname
      rw [if_neg (by simpa using hn), Directory.refusals, Directory.refusals, ih hname]

/-- Another entry under a name. -/
theorem set (h : SameRefusals (entries.lookup name) (some e)) :
    SameRefusals (some (.directory entries refusal)) (some (.directory (entries.set name e) refusal)) := by
  refine directory (fun skipped place => (h.refusals_set skipped place).symm) fun n => ?_
  rw [Directory.lookup_set]
  split
  · rename_i hn
    exact hn ▸ h
  · exact refl _

/-- No entry under a name. -/
theorem drop (hnodup : (entries.map Prod.fst).Nodup) (h : SameRefusals (entries.lookup name) none) :
    SameRefusals (some (.directory entries refusal)) (some (.directory (entries.drop name) refusal)) := by
  have hname : ∀ e ∈ entries, e.1 = name → ∀ skipped place, e.2.refusals skipped place = [] := by
    rintro ⟨n, e⟩ hmem rfl skipped place
    rw [(Directory.lookup_eq_some_iff hnodup).2 hmem] at h
    simpa [refusalsIn] using h [] skipped place
  refine directory (fun skipped place => ?_) fun n => ?_
  · rw [Directory.refusals_eq, Directory.refusals_eq]
    clear hnodup h
    unfold Directory.drop
    induction entries with
    | nil => rfl
    | cons first rest ih =>
      obtain ⟨hfirst, hrest⟩ := List.forall_mem_cons.1 hname
      rw [List.flatMap_cons, ih hrest]
      by_cases hn : first.1 = name
      · rw [List.filter_cons_of_neg (by simpa using hn), hfirst hn]
        simp
      · rw [List.filter_cons_of_pos (by simpa using hn), List.flatMap_cons]
  · rw [Directory.lookup_drop]
    split
    · rename_i hn
      exact hn ▸ h
    · exact refl _

end SameRefusals

namespace Directory

/-- Where no directory was, an entry can be put that refuses nothing. -/
theorem sameRefusals_putAt {entry : Entry} (hentry : SameRefusals (some entry) none) :
    ∀ {entries : Directory} {place : Place} {refusal : Option String},
      (∀ inner r, entries.at? place ≠ some (.directory inner r)) →
      SameRefusals (some (.directory entries refusal)) (some (.directory (entries.putAt entry place) refusal))
  | _, [], _, _ => .refl _
  | entries, [name], _, hold => by
    rw [putAt]
    exact .set ((SameRefusals.of_not_directory hold).trans hentry.symm)
  | entries, name :: next :: rest, _, hold => by
    rw [putAt]
    split
    · rename_i inner r hlookup
      refine .set (hlookup ▸ sameRefusals_putAt hentry fun inner' r' h => hold inner' r' ?_)
      rw [at?_cons, hlookup]
      exact h
    · exact .refl _
    · simp

/-- Where no directory was, an entry can be taken out. -/
theorem sameRefusals_dropAt {names links : String → Prop} :
    ∀ {entries : Directory} {place : Place} {refusal : Option String},
      Entry.Built names links (.directory entries refusal) →
      (∀ inner r, entries.at? place ≠ some (.directory inner r)) →
      SameRefusals (some (.directory entries refusal)) (some (.directory (entries.dropAt place) refusal))
  | entries, [], _, _, hold => absurd rfl (hold entries none)
  | entries, [name], _, h, hold => .drop h.nodup (.of_not_directory hold)
  | entries, name :: next :: rest, _, h, hold => by
    rw [dropAt]
    split
    · rename_i inner r hlookup
      have hinner := h.of_mem (mem_of_lookup hlookup)
      refine .set (hlookup ▸ sameRefusals_dropAt hinner fun inner' r' h => hold inner' r' ?_)
      rw [at?_cons, hlookup]
      exact h
    · exact .refl _
    · simp

end Directory

end RouteAtlas
