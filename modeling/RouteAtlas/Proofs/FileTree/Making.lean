/-
  RouteAtlas: making directories.

  * `Made path t t'`: the tree has grown, and all that is new are directories to which the path, or a
    path above it, leads;
  * `made_makeAll`: making directories makes missing ones and nothing else, also where it fails;
  * `isDirectory_makeAll`: where it does not fail, the path leads to a directory afterwards;
  * `makeAll_unobstructed`: in a plain tree it does not fail where no file is in the way.
-/
import RouteAtlas.Proofs.FileTree.Growth

namespace RouteAtlas

open RouteAtlas.Work

namespace FilePath

/-- A path is another one, or stands above it. -/
def Above (p q : FilePath) : Prop :=
  p.root = q.root ∧ p.names <+: q.names

theorem Above.refl (p : FilePath) : p.Above p := ⟨rfl, List.prefix_refl _⟩

theorem Above.of_parent {p q : FilePath} (h : p.Above q.parent) : p.Above q :=
  ⟨h.1, h.2.trans (List.dropLast_prefix _)⟩

end FilePath

namespace FileTree

variable {t t' : FileTree} {path : FilePath} {place : Place}

/-! ## What is made -/

/-- A tree has grown, and all that is new are directories to which a path, or one above it, leads. -/
structure Made (path : FilePath) (t t' : FileTree) : Prop extends Grown t t' where
  fresh : ∀ place, t.at? place = none → t'.at? place ≠ none →
    t'.HasDirectory place ∧ ∃ p, FilePath.Above p path ∧ t'.placeOf p = .ok place

instance (path : FilePath) : IsPreorder FileTree (Made path) where
  refl t := ⟨refl_of Grown t, fun _ hn hne => absurd hn hne⟩
  trans t t' t'' h h' := by
    refine ⟨trans_of Grown h.toGrown h'.toGrown, fun place hnone hne => ?_⟩
    by_cases he : t'.at? place = none
    · exact h'.fresh place he hne
    · obtain ⟨hd, p, hp, hplace⟩ := h.fresh place hnone he
      exact ⟨h'.at?_directory hd, p, hp, placeOf_leads h'.leads hplace⟩

theorem Made.of_parent (h : Made path.parent t t') : Made path t t' :=
  ⟨h.toGrown, fun place hnone hne =>
    let ⟨hd, p, hp, hplace⟩ := h.fresh place hnone hne
    ⟨hd, p, hp.of_parent, hplace⟩⟩

theorem run_makeDirectory (t : FileTree) (path : FilePath) : (makeDirectory path).run.run t =
    match t.ownPlace path with
    | .error e => (.error e, t)
    | .ok place =>
      match t.at? place with
      | none => (.ok (), { t with root := t.root.putAt (.directory []) place })
      | some _ => (.error .occupied, t) := by
  unfold makeDirectory
  rw [run_bind, run_examine]
  cases t.ownPlace path with
  | error e => rfl
  | ok place =>
    simp only [Except.map]
    cases t.at? place <;> rfl

theorem made_makeDirectory (path : FilePath) : Keeps (Made path) (makeDirectory path) := by
  intro t
  rw [run_makeDirectory]
  cases hp : t.ownPlace path with
  | error e => exact refl_of (Made path) t
  | ok place =>
    simp only
    cases hnone : t.at? place with
    | some e => exact refl_of (Made path) t
    | none =>
      have hgrown := grown_put Directory.nothingBelow_empty (by simp) hnone
      refine ⟨hgrown, fun other hother hne => ?_⟩
      -- Only the place of the directory can be new.
      obtain rfl : other = place := by
        by_contra hdiff
        have halike := alike_put Directory.nothingBelow_empty hnone hdiff
        exact hne ((halike.eq_of_not_directory (by simp [hother])).trans hother)
      rcases Directory.at?_putAt_self (.directory []) t.root other with hself | hself
      · refine ⟨⟨[], none, hself⟩, path, .refl path, ?_⟩
        refine placeOf_of_ownPlace (ownPlace_leads hgrown.leads hp) fun target hlink => ?_
        cases (Option.some.inj (hself.symm.trans hlink))
      · exact absurd (hself.trans hnone) hne

theorem made_ensureDirectory (path : FilePath) : Keeps (Made path) (ensureDirectory path) := by
  unfold ensureDirectory
  refine (made_makeDirectory path).tryCatch fun e => keeps_get.bind fun t => ?_
  split
  · exact keeps_throw e
  · exact keeps_pure ()

/-- **Making directories** makes missing ones at the path and above it, and nothing else. -/
theorem made_makeAll : ∀ (path : FilePath) (above : Nat), Keeps (Made path) (makeAll path above)
  | path, 0 => made_ensureDirectory path
  | path, above + 1 => by
    unfold makeAll
    refine (made_makeDirectory path).tryCatch fun e => ?_
    split
    · have hparent : Keeps (Made path) (makeAll path.parent above) :=
        fun t => (made_makeAll path.parent above t).of_parent
      exact hparent.bind fun _ => made_ensureDirectory path
    · refine keeps_get.bind fun t => ?_
      split
      · exact keeps_throw e
      · exact keeps_pure ()

/-! ## Directories that are there afterwards -/

theorem isDirectory_makeDirectory (hs : t.Standing)
    (hr : (makeDirectory path).run.run t = (.ok (), t')) : t'.isDirectory path = true := by
  rw [run_makeDirectory] at hr
  cases hp : t.ownPlace path with
  | error e => rw [hp] at hr; cases hr
  | ok place =>
    rw [hp] at hr
    simp only at hr
    cases hnone : t.at? place with
    | some e => rw [hnone] at hr; cases hr
    | none =>
      rw [hnone] at hr
      cases hr
      have hne : place ≠ [] := by
        rintro rfl
        cases hnone
      have hself := at?_put (.directory []) (ownPlace_above hs hp) hne
      have hgrown := grown_put Directory.nothingBelow_empty (by simp) hnone
      refine isDirectory_iff.2 ⟨place, ?_, [], none, hself⟩
      refine placeOf_of_ownPlace (ownPlace_leads hgrown.leads hp) fun target hlink => ?_
      cases (Option.some.inj (hself.symm.trans hlink))

/-- Passes over a failure if a directory is there. -/
theorem run_unlessDirectory (t : FileTree) (path : FilePath) (e : TreeError) :
    (do if !(← get).isDirectory path then throw e : Change Unit).run.run t =
      if t.isDirectory path then (.ok (), t) else (.error e, t) := by
  rw [run_bind, run_get]
  simp only
  cases t.isDirectory path <;> rfl

theorem isDirectory_ensureDirectory (hs : t.Standing)
    (hr : (ensureDirectory path).run.run t = (.ok (), t')) : t'.isDirectory path = true := by
  unfold ensureDirectory at hr
  rw [run_tryCatch] at hr
  rcases hm : (makeDirectory path).run.run t with ⟨e | _, t''⟩
  · rw [hm] at hr
    simp only [run_unlessDirectory] at hr
    split at hr
    · rename_i hd
      cases hr
      exact hd
    · cases hr
  · rw [hm] at hr
    cases hr
    exact isDirectory_makeDirectory hs hm

/-- **Directories that were made** are there. -/
theorem isDirectory_makeAll : ∀ {above : Nat} {path : FilePath} {t t' : FileTree}, t.Standing →
    (makeAll path above).run.run t = (.ok (), t') → t'.isDirectory path = true
  | 0, _, _, _, hs, hr => isDirectory_ensureDirectory hs hr
  | above + 1, path, t, t', hs, hr => by
    unfold makeAll at hr
    rw [run_tryCatch] at hr
    rcases hm : (makeDirectory path).run.run t with ⟨e | _, t₁⟩
    · have hs₁ : t₁.Standing := by
        have hmade := made_makeDirectory path t
        rw [hm] at hmade
        exact hs.grown hmade.toGrown
      rw [hm] at hr
      simp only at hr
      split at hr
      · rw [run_bind] at hr
        rcases ha : (makeAll path.parent above).run.run t₁ with ⟨e' | _, t₂⟩
        · rw [ha] at hr; cases hr
        · have hmade := made_makeAll path.parent above t₁
          rw [ha] at hr hmade
          exact isDirectory_ensureDirectory (hs₁.grown hmade.toGrown) hr
      · rw [run_unlessDirectory] at hr
        split at hr
        · rename_i hd
          cases hr
          exact hd
        · cases hr
    · rw [hm] at hr
      cases hr
      exact isDirectory_makeDirectory hs hm

/-! ## Plain trees -/

/-- A path from the root that spells the names of entries. -/
structure Spelled (path : FilePath) : Prop where
  absolute : path.isAbsolute = true
  names : ∀ name ∈ path.names, IsEntryName name

theorem Spelled.fromRoot (h : Spelled path) : FromRoot path :=
  ⟨h.absolute, fun name hn => (h.names name hn).toIsPart⟩

theorem Spelled.parent (h : Spelled path) : Spelled path.parent :=
  ⟨h.absolute, fun name hn => h.names name ((List.dropLast_sublist _).subset hn)⟩

/-- No file stands at a place or above it. -/
def Unobstructed (t : FileTree) (place : Place) : Prop :=
  ∀ above content, above <+: place → t.at? above ≠ some (.file content)

theorem Unobstructed.dropLast (h : t.Unobstructed place) : t.Unobstructed place.dropLast :=
  fun above content ha => h above content (ha.trans (List.dropLast_prefix _))

/-- Directories are in nobody's way. -/
theorem Unobstructed.made (h : t.Unobstructed place) (hm : Made path t t') :
    t'.Unobstructed place := by
  intro above content ha he
  by_cases hnone : t.at? above = none
  · obtain ⟨⟨entries, _, hd⟩, -⟩ := hm.fresh above hnone (by simp [he])
    rw [he] at hd
    cases hd
  · exact h above content ha (((hm.kept above hnone).file_iff content).2 he)

/-- Steps that meet no file lead to a directory, or to nothing. -/
theorem follow_unobstructed (h : t.Plain) (links : Nat) : ∀ {steps : List String} {here : Place},
    t.HasDirectory here → (∀ step ∈ steps, step ≠ "..") → t.Unobstructed (here ++ steps) →
      t.HasDirectory (here ++ steps) ∧ t.follow links here steps = .ok (here ++ steps) ∨
      t.at? (here ++ steps) = none ∧ (t.follow links here steps = .error .missing ∨
        t.follow links here steps = .ok (here ++ steps))
  | [], here, hhere, _, _ => by
    rw [List.append_nil, follow]
    exact Or.inl ⟨hhere, rfl⟩
  | step :: rest, here, hhere, hup, hfree => by
    obtain ⟨hstep, hrest⟩ := List.forall_mem_cons.1 hup
    have hsplit : here ++ step :: rest = here ++ [step] ++ rest := by simp
    rw [hsplit] at hfree ⊢
    rw [follow_cons h _ _ hstep]
    cases he : t.at? (here ++ [step]) with
    | none =>
      refine Or.inr ⟨?_, ?_⟩
      · show t.root.at? (here ++ [step] ++ rest) = none
        rw [Directory.at?_append, show t.root.at? (here ++ [step]) = none from he]
        rfl
      · cases rest with
        | nil => exact Or.inr (by simp)
        | cons next rest => exact Or.inl (by simp)
    | some e =>
      cases e with
      | directory entries refusal => exact follow_unobstructed h links ⟨entries, refusal, he⟩ hrest hfree
      | file content => exact absurd he (hfree _ content (List.prefix_append _ _))
      | link target => exact absurd he h.not_link

theorem placeOf_unobstructed (h : t.Plain) (hp : Spelled path) (hfree : t.Unobstructed path.names) :
    t.HasDirectory path.names ∧ t.placeOf path = .ok path.names ∨
      t.at? path.names = none ∧
        (t.placeOf path = .error .missing ∨ t.placeOf path = .ok path.names) := by
  have hfollow := follow_unobstructed h linkLimit (hasDirectory_nil t)
    (fun name hn => (hp.names name hn).ne_above) hfree
  unfold placeOf
  rw [if_pos hp.absolute]
  exact hfollow

/-- In a plain tree steps lead to the place that they spell. -/
theorem follow_names (h : t.Plain) (links : Nat) : ∀ {steps : List String} {here : Place},
    (∀ step ∈ steps, step ≠ "..") → t.follow links here steps = .ok place → place = here ++ steps
  | [], here, _, hf => by
    rw [follow] at hf
    rw [List.append_nil, Except.ok.inj hf]
  | step :: rest, here, hup, hf => by
    obtain ⟨hstep, hrest⟩ := List.forall_mem_cons.1 hup
    have stop : ∀ {e : TreeError},
        (if rest.isEmpty then .ok (here ++ [step]) else .error e) = Except.ok place →
          place = here ++ step :: rest := by
      intro e he
      split at he
      · rename_i hempty
        rw [List.isEmpty_iff.1 hempty, Except.ok.inj he]
      · cases he
    rw [follow_cons h _ _ hstep] at hf
    split at hf
    · exact stop hf
    · rw [follow_names h links hrest hf, List.append_assoc, List.singleton_append]
    · exact stop hf

theorem placeOf_spelled (h : t.Plain) (hp : Spelled path) (hplace : t.placeOf path = .ok place) :
    place = path.names := by
  unfold placeOf at hplace
  rw [if_pos hp.absolute] at hplace
  exact follow_names h linkLimit (fun name hn => (hp.names name hn).ne_above) hplace

theorem hasDirectory_of_isDirectory (h : t.Plain) (hp : Spelled path)
    (hd : t.isDirectory path = true) : t.HasDirectory path.names := by
  obtain ⟨place, hplace, hdir⟩ := isDirectory_iff.1 hd
  exact placeOf_spelled h hp hplace ▸ hdir

/-- Where no file is in the way, a directory is made, is there, or misses the one above. -/
theorem makeDirectory_unobstructed (h : t.Plain) (hp : Spelled path)
    (hfree : t.Unobstructed path.names) :
    (∃ t', (makeDirectory path).run.run t = (.ok (), t')) ∨
      (t.isDirectory path = true ∧ (makeDirectory path).run.run t = (.error .occupied, t)) ∨
      (path.names ≠ [] ∧ ¬ t.HasDirectory path.names.dropLast ∧
        (makeDirectory path).run.run t = (.error .missing, t)) := by
  rw [run_makeDirectory]
  by_cases hne : path.names = []
  · have hplace : t.placeOf path = .ok [] := by
      unfold placeOf
      rw [if_pos hp.absolute, hne]
      show t.follow linkLimit [] [] = _
      rw [follow]
    have hown : t.ownPlace path = .ok [] := by
      unfold ownPlace
      rw [if_pos (by simp [hne]), hplace]
    rw [hown]
    exact Or.inr (Or.inl ⟨isDirectory_iff.2 ⟨[], hplace, hasDirectory_nil t⟩, rfl⟩)
  · have hlast : path.names = path.parent.names ++ [path.name] :=
      congrArg FilePath.names (child_parent hne).symm
    have hup : path.name ≠ ".." := (hp.names _ (by rw [hlast]; simp)).ne_above
    rcases placeOf_unobstructed h hp.parent hfree.dropLast with ⟨hd, hparent⟩ | ⟨hnone, hparent⟩
    · rw [ownPlace_eq hne hup hparent hd, ← hlast]
      simp only
      cases he : t.at? path.names with
      | none => exact Or.inl ⟨_, rfl⟩
      | some e =>
        refine Or.inr (Or.inl ⟨isDirectory_iff.2 ⟨path.names, ?_, ?_⟩, rfl⟩)
        · unfold placeOf
          rw [if_pos hp.absolute]
          have hat : t.at? ([] ++ path.names) = some e := he
          exact follow_at? h linkLimit hat
        · cases e with
          | directory entries refusal => exact ⟨entries, refusal, he⟩
          | file content => exact absurd he (hfree _ content (List.prefix_refl _))
          | link target => exact absurd he h.not_link
    · refine Or.inr (Or.inr ⟨hne, ?_, ?_⟩)
      · rintro ⟨entries, refusal, hd⟩
        rw [show t.at? path.names.dropLast = none from hnone] at hd
        cases hd
      · rw [ownPlace_missing hne hup hnone hparent]

theorem ensureDirectory_unobstructed (h : t.Plain) (hp : Spelled path)
    (hfree : t.Unobstructed path.names)
    (habove : path.names = [] ∨ t.HasDirectory path.names.dropLast) :
    ∃ t', (ensureDirectory path).run.run t = (.ok (), t') := by
  unfold ensureDirectory
  rw [run_tryCatch]
  rcases makeDirectory_unobstructed h hp hfree with ⟨t', hm⟩ | ⟨hd, hm⟩ | ⟨hne, hnot, -⟩
  · exact ⟨t', by rw [hm]⟩
  · exact ⟨t, by rw [hm]; simp only [run_unlessDirectory, hd, if_true]⟩
  · exact absurd (habove.resolve_left hne) hnot

/-- **Directories can be made where no file is in the way.** -/
theorem makeAll_unobstructed : ∀ {above : Nat} {path : FilePath} {t : FileTree}, t.Plain →
    t.Standing → Spelled path → path.names.length ≤ above → t.Unobstructed path.names →
      ∃ t', (makeAll path above).run.run t = (.ok (), t')
  | 0, path, t, h, _, hp, hlen, hfree =>
    ensureDirectory_unobstructed h hp hfree (Or.inl (List.length_eq_zero_iff.1 (by omega)))
  | above + 1, path, t, h, hs, hp, hlen, hfree => by
    unfold makeAll
    rw [run_tryCatch]
    rcases makeDirectory_unobstructed h hp hfree with ⟨t', hm⟩ | ⟨hd, hm⟩ | ⟨-, -, hm⟩
    · exact ⟨t', by rw [hm]⟩
    · refine ⟨t, ?_⟩
      rw [hm]
      show (do if !(← get).isDirectory path then throw .occupied : Change Unit).run.run t = _
      rw [run_unlessDirectory, if_pos hd]
    · have hshort : path.parent.names.length ≤ above := by
        simp only [FilePath.parent, List.length_dropLast]
        omega
      obtain ⟨t₁, hparent⟩ := makeAll_unobstructed h hs hp.parent hshort hfree.dropLast
      have hmade := made_makeAll path.parent above t
      have hspares : SparesPlain (fun _ => True) t _ := spares_makeAll above hp.parent.fromRoot t
      rw [hparent] at hmade hspares
      have hd := hasDirectory_of_isDirectory (hspares h).plain hp.parent (isDirectory_makeAll hs hparent)
      obtain ⟨t', hlast⟩ := ensureDirectory_unobstructed (hspares h).plain hp (hfree.made hmade) (Or.inr hd)
      refine ⟨t', ?_⟩
      rw [hm]
      show (do makeAll path.parent above; ensureDirectory path : Change Unit).run.run t = _
      rw [run_bind, hparent]
      exact hlast

end FileTree

end RouteAtlas
