/-
  RouteAtlas: deliveries.

  A delivery makes the missing directories above a path and puts a file there in one step.

  * `Delivered` is what a tree is after a delivery;
  * `deliver_cases`: a delivery is all or nothing;
  * `deliver_fails_iff`: in a plain tree it fails exactly if a file stands above the path, or a directory
    at it.
-/
import RouteAtlas.Proofs.FileTree.Replace

namespace RouteAtlas

open RouteAtlas.Work

namespace FileTree

variable {t t' : FileTree} {path : FilePath} {place : Place} {content : ByteArray}

/-! ## All or nothing -/

/-- Where no directory and no link stands, a file can be put and paths lead where they led. -/
theorem leads_put_file (hd : ¬ t.HasDirectory place)
    (hnot : ∀ target, t.at? place ≠ some (.link target)) (content : ByteArray) :
    Leads t { t with root := t.root.putAt (.file content) place } := by
  have hself : ∀ e, { t with root := t.root.putAt (.file content) place }.at? place = some e →
      e = .file content ∨ t.at? place = some e := fun e he => by
    rcases Directory.at?_putAt_self (.file content) t.root place with hput | hput
    · exact Or.inl (Option.some.inj (he.symm.trans hput))
    · exact Or.inr (hput.symm.trans he)
  have hother : ∀ {other}, other ≠ place → Alike (t.at? other)
      ({ t with root := t.root.putAt (.file content) place }.at? other) := fun hne =>
    Directory.at?_putAt (Directory.nothingBelow_of_not_directory (by simp))
      (fun inner refusal hi => hd ⟨inner, refusal, hi⟩) hne
  refine ⟨rfl, fun other hold => ?_, fun other target => ?_⟩
  · by_cases heq : other = place
    · exact absurd (heq ▸ hold) hd
    · exact (hother heq).directory hold
  · by_cases heq : other = place
    · subst heq
      refine ⟨fun hlink => ?_, fun hlink => absurd hlink (hnot target)⟩
      rcases hself _ hlink with hfile | hold
      · cases hfile
      · exact hold
    · rcases hother heq with hsame | ⟨refusal, ⟨entries, hold⟩, entries', hnew⟩
      · rw [hsame]
      · simp [hold, hnew]

/-- A file was delivered at a path: the directories above it were made, which gave the tree `made`, and
    the file was put in its place there.  It can be read if it has not taken the place of a link. -/
structure Delivered (path : FilePath) (content : ByteArray) (t made t' : FileTree) (place : Place) :
    Prop where
  grown : Made path.parent t made
  above : made.isDirectory path.parent = true
  stands : made.ownPlace path = .ok place
  free : ¬ made.HasDirectory place
  file : t'.at? place = some (.file content)
  kept : ∀ other, other ≠ place → Alike (made.at? other) (t'.at? other)
  current : t'.current = made.current
  read : (∀ target, t.at? place ≠ some (.link target)) → t'.read path = .ok content

theorem delivered_put {made : FileTree} (hs : t.Standing) (hmade : Made path.parent t made)
    (habove : made.isDirectory path.parent = true) (hplace : made.ownPlace path = .ok place)
    (hfree : ¬ made.HasDirectory place) (content : ByteArray) :
    Delivered path content t made { made with root := made.root.putAt (.file content) place } place := by
  have hne : place ≠ [] := fun he => hfree (he ▸ hasDirectory_nil made)
  have hfile := at?_put (.file content)
    (ownPlace_above (hs.grown hmade.toGrown) hplace) hne
  refine ⟨hmade, habove, hplace, hfree, hfile, fun other hother => ?_, rfl, fun hnot => ?_⟩
  · exact Directory.at?_putAt (Directory.nothingBelow_of_not_directory (by simp))
      (fun inner refusal hi => hfree ⟨inner, refusal, hi⟩) hother
  · have hnot' := fun target => mt (hmade.leads.link place target).1 (hnot target)
    have hown := ownPlace_leads (leads_put_file hfree hnot' content) hplace
    have hleads := placeOf_of_ownPlace hown (by simp [hfile])
    unfold read
    rw [hleads]
    simp only [bind, Except.bind, hfile]

/-- **A delivery is all or nothing.**  The file is in its place, or nothing is new but directories above
    the path. -/
theorem deliver_cases (hs : t.Standing) (path : FilePath) (content : ByteArray) :
    (∃ made place, Delivered path content t made ((deliver path content).run.run t).2 place ∧
      ((deliver path content).run.run t).1 = .ok ()) ∨
    (Made path.parent t ((deliver path content).run.run t).2 ∧
      ∃ e, ((deliver path content).run.run t).1 = .error e) := by
  have hmade := made_makeAll path.parent path.parent.names.length t
  unfold deliver
  rw [run_bind]
  rcases hm : (makeDirectories path.parent).run.run t with ⟨e | _, made⟩
  · rw [show (makeAll path.parent path.parent.names.length).run.run t = (.error e, made) from hm] at hmade
    exact Or.inr ⟨hmade, e, rfl⟩
  · rw [show (makeAll path.parent path.parent.names.length).run.run t = (.ok (), made) from hm] at hmade
    have habove := isDirectory_makeAll hs hm
    obtain ⟨place, hplace⟩ := exists_ownPlace habove
    simp only
    rcases run_replace hplace content with ⟨-, e, hr⟩ | ⟨hfree, hr⟩
    · rw [hr]
      exact Or.inr ⟨hmade, e, rfl⟩
    · rw [hr]
      exact Or.inl ⟨made, place, delivered_put hs hmade habove hplace hfree content, rfl⟩

/-! ## Plain trees -/

/-- A path that spells names is spelled out. -/
theorem spelledOut_eq (hp : Spelled path) (t : FileTree) : t.spelledOut path = ⟨"/", path.names⟩ := by
  have hfold : ∀ (names here : List String), (∀ name ∈ names, name ≠ "..") →
      names.foldl (fun here name => if name == ".." then here.dropLast else here ++ [name]) here =
        here ++ names := by
    intro names
    induction names with
    | nil => simp
    | cons name rest ih =>
      intro here hup
      obtain ⟨hname, hrest⟩ := List.forall_mem_cons.1 hup
      rw [List.foldl_cons, if_neg (by simpa using hname), ih _ hrest, List.append_assoc,
        List.singleton_append]
  unfold spelledOut placeNamed
  rw [if_pos hp.absolute, hfold _ _ fun name hn => (hp.names name hn).ne_above, List.nil_append]

/-- The temporary file of a spelled path has its directory where the file has it. -/
theorem isDirectory_spelledOut (hp : Spelled path) (t : FileTree) :
    t.isDirectory (t.spelledOut path) = t.isDirectory path := by
  unfold isDirectory placeOf
  rw [spelledOut_eq hp, if_pos hp.absolute]
  rfl

/-- In a plain tree what stands at a spelled path stands at its names. -/
theorem ownPlace_spelled (h : t.Plain) (hp : Spelled path) (hplace : t.ownPlace path = .ok place) :
    place = path.names := by
  rcases ownPlace_cases hplace with ⟨-, hplace⟩ | ⟨hne, -, above, habove, -, rfl⟩
  · exact placeOf_spelled h hp hplace
  · rw [placeOf_spelled h hp.parent habove]
    exact congrArg FilePath.names (child_parent hne)

/-- A directory is made at no place below the path. -/
theorem Made.hasDirectory_of_below (hm : Made path.parent t t') (h' : t'.Plain) (hp : Spelled path)
    (hne : path.names ≠ []) (hd : t'.HasDirectory path.names) : t.HasDirectory path.names := by
  by_cases hnone : t.at? path.names = none
  · obtain ⟨entries, refusal, he⟩ := hd
    obtain ⟨-, p, habove, hplace⟩ := hm.fresh _ hnone (by simp [he])
    have hspelled : Spelled p := by
      refine ⟨?_, fun name hn => hp.parent.names name (habove.2.subset hn)⟩
      unfold FilePath.isAbsolute
      rw [habove.1]
      exact hp.absolute
    have hlen := habove.2.length_le
    rw [← placeOf_spelled h' hspelled hplace] at hlen
    have hpos := List.length_pos_iff.2 hne
    simp only [FilePath.parent, List.length_dropLast] at hlen
    omega
  · obtain ⟨entries, refusal, he⟩ := hd
    rcases hm.kept _ hnone with heq | ⟨r, ⟨inner, hold⟩, -⟩
    · exact ⟨entries, refusal, heq.trans he⟩
    · exact ⟨inner, r, hold⟩

theorem prefix_parent {above : Place} (h : above <+: path.names) (hne : above ≠ path.names) :
    above <+: path.parent.names := by
  have hlt : above.length < path.names.length :=
    Nat.lt_of_le_of_ne h.length_le fun he => hne (h.eq_of_length he)
  have hlen : path.parent.names.length = path.names.length - 1 := List.length_dropLast
  exact List.prefix_of_prefix_length_le h (List.dropLast_prefix _) (by omega)

/-- What a delivery comes to behind the directories that were made in a plain tree. -/
theorem run_deliver_made (h : t.Plain) (hs : t.Standing) (hp : Spelled path) {made : FileTree}
    (hm : (makeDirectories path.parent).run.run t = (.ok (), made)) (content : ByteArray) :
    Made path.parent t made ∧ made.Plain ∧ made.HasDirectory path.parent.names ∧
      ((∃ e, ((deliver path content).run.run t).1 = .error e) ↔ made.HasDirectory path.names) := by
  have hmade := made_makeAll path.parent path.parent.names.length t
  have hspares : SparesPlain (fun _ => True) t _ :=
    spares_makeAll path.parent.names.length hp.parent.fromRoot t
  rw [show (makeAll path.parent path.parent.names.length).run.run t = (.ok (), made) from hm]
    at hmade hspares
  have hplain := (hspares h).plain
  have habove := isDirectory_makeAll hs hm
  obtain ⟨place, hplace⟩ := exists_ownPlace habove
  have hnames := ownPlace_spelled hplain hp hplace
  refine ⟨hmade, hplain, hasDirectory_of_isDirectory hplain hp.parent habove, ?_⟩
  unfold deliver
  rw [run_bind, hm]
  simp only
  rcases run_replace hplace content with ⟨hcause, e, hr⟩ | ⟨hfree, hr⟩
  · rw [isDirectory_spelledOut hp.parent, habove] at hcause
    rw [hr]
    exact ⟨fun _ => hnames ▸ hcause.resolve_left (by simp), fun _ => ⟨e, rfl⟩⟩
  · rw [hr]
    exact ⟨fun ⟨_, he⟩ => (nomatch he), fun hd => absurd (hnames ▸ hd) hfree⟩

/-- **In a plain tree a delivery fails** exactly if a file stands above the path, or a directory at it. -/
theorem deliver_fails_iff (h : t.Plain) (hs : t.Standing) (hp : Spelled path) (content : ByteArray) :
    (∃ e, ((deliver path content).run.run t).1 = .error e) ↔
      (∃ above data, above <+: path.names ∧ above ≠ path.names ∧ t.at? above = some (.file data)) ∨
        t.HasDirectory path.names := by
  constructor
  · intro he
    by_contra hnot
    obtain ⟨hfiles, hd⟩ := not_or.1 hnot
    have hne : path.names ≠ [] := fun hnil => hd (hnil ▸ hasDirectory_nil t)
    have hfree : t.Unobstructed path.parent.names := by
      intro above data hprefix hfile
      refine hfiles ⟨above, data, hprefix.trans (List.dropLast_prefix _), ?_, hfile⟩
      rintro rfl
      have hlen := hprefix.length_le
      have hpos := List.length_pos_iff.2 hne
      simp only [FilePath.parent, List.length_dropLast] at hlen
      omega
    obtain ⟨made, hm⟩ := makeAll_unobstructed h hs hp.parent (Nat.le_refl _) hfree
    obtain ⟨hmade, hplain, -, hfails⟩ := run_deliver_made h hs hp hm content
    exact hd (hmade.hasDirectory_of_below hplain hp hne (hfails.1 he))
  · intro hcause
    rcases hm : (makeDirectories path.parent).run.run t with ⟨e | _, made⟩
    · refine ⟨e, ?_⟩
      unfold deliver
      rw [run_bind, hm]
    · obtain ⟨hmade, -, hparent, hfails⟩ := run_deliver_made h hs hp hm content
      refine hfails.2 ?_
      rcases hcause with ⟨above, data, hprefix, hne, hfile⟩ | hd
      · have hkept := hmade.at?_eq hfile (by simp)
        exact absurd hparent (not_hasDirectory_of_file hkept (prefix_parent hprefix hne))
      · exact hmade.at?_directory hd

end FileTree

end RouteAtlas
