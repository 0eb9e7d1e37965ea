/-
  RouteAtlas: trees that grow.

  * `Grown t t'`: what stands in `t` stands in `t'` too, files and links as they are, and no link is new;
    it follows that `Leads t t'`;
  * `Leads t t'`: a path that leads to a place in `t` leads to it in `t'` (`placeOf_leads`);
  * `ownPlace_cases` says where the last name of a path itself stands, and `ownPlace_leads` that it stands
    there in the other tree too;
  * `grown_put`: a tree grows by what is put where nothing was.
-/
import RouteAtlas.FileTree.Change
import RouteAtlas.Proofs.FileTree.Change

namespace RouteAtlas

open RouteAtlas.Work

theorem Alike.refl (e : Option Entry) : Alike e e := Or.inl rfl

theorem Alike.trans {a b c : Option Entry} (h : Alike a b) (h' : Alike b c) : Alike a c := by
  rcases h with rfl | ⟨refusal, ha, entries, rfl⟩
  · exact h'
  · rcases h' with rfl | ⟨_, ⟨_, hb⟩, hc⟩
    · exact Or.inr ⟨refusal, ha, entries, rfl⟩
    · cases hb
      exact Or.inr ⟨refusal, ha, hc⟩

/-- What is no directory is the same on both sides. -/
theorem Alike.eq_of_not_directory {a b : Option Entry} (h : Alike a b)
    (hnot : ∀ entries refusal, a ≠ some (.directory entries refusal)) : b = a := by
  rcases h with rfl | ⟨refusal, ⟨entries, he⟩, -⟩
  · rfl
  · exact absurd he (hnot entries refusal)

/-- What is put in a directory stands there. -/
theorem Directory.at?_putAt_of_above {entry : Entry} : ∀ {entries : Directory} {place : Place}, place ≠ [] →
    (∃ inner refusal, entries.at? place.dropLast = some (.directory inner refusal)) →
      (entries.putAt entry place).at? place = some entry
  | _, [], hne, _ => absurd rfl hne
  | entries, [name], _, _ => by
    rw [Directory.putAt, Directory.at?_cons, Directory.lookup_set, if_pos rfl]
    exact Entry.at?_nil entry
  | entries, name :: next :: rest, _, ⟨inner, refusal, habove⟩ => by
    rw [List.dropLast_cons_cons, Directory.at?_cons] at habove
    obtain ⟨e, hlookup, he⟩ := Option.bind_eq_some_iff.1 habove
    obtain ⟨below, r, rfl⟩ : ∃ below r, e = .directory below r := by
      cases hrest : (next :: rest).dropLast with
      | nil => rw [hrest, Entry.at?_nil] at he; exact ⟨inner, refusal, Option.some.inj he⟩
      | cons m ms =>
        rw [hrest] at he
        cases e with
        | directory below r => exact ⟨below, r, rfl⟩
        | file content => cases he
        | link target => cases he
    rw [Directory.putAt, hlookup]
    · simp only
      rw [Directory.at?_cons, Directory.lookup_set, if_pos rfl]
      refine at?_putAt_of_above (by simp) ?_
      cases hrest : (next :: rest).dropLast with
      | nil => exact ⟨below, none, rfl⟩
      | cons m ms =>
        rw [hrest] at he
        exact ⟨inner, refusal, he⟩
    · simp

namespace FileTree

variable {t t' : FileTree} {path : FilePath} {place : Place}

/-! ## Growth -/

/-- What stands in one tree stands in another one too, and no link is new there. -/
structure Grown (t t' : FileTree) : Prop where
  current : t'.current = t.current
  kept : ∀ place, t.at? place ≠ none → Alike (t.at? place) (t'.at? place)
  unlinked : ∀ place, t.at? place = none → ∀ target, t'.at? place ≠ some (.link target)

theorem Grown.at?_directory (h : Grown t t') (hd : t.HasDirectory place) : t'.HasDirectory place := by
  obtain ⟨entries, refusal, he⟩ := hd
  exact (h.kept place (by simp [he])).directory ⟨entries, refusal, he⟩

theorem Grown.at?_eq (h : Grown t t') {e : Entry} (he : t.at? place = some e)
    (hnot : ∀ entries refusal, e ≠ .directory entries refusal) : t'.at? place = some e :=
  ((h.kept place (by simp [he])).eq_of_not_directory (by simpa [he] using hnot)).trans he

instance : IsPreorder FileTree Grown where
  refl _ := ⟨rfl, fun _ _ => Alike.refl _, fun _ hn _ he => by rw [hn] at he; cases he⟩
  trans t t' t'' h h' := by
    refine ⟨h'.current.trans h.current, fun place hne => ?_, fun place hnone target => ?_⟩
    · have hkept := h.kept place hne
      refine hkept.trans (h'.kept place fun hnone => hne ?_)
      rcases hkept with heq | ⟨_, -, entries, he⟩
      · rw [heq, hnone]
      · rw [hnone] at he; cases he
    · cases he : t'.at? place with
      | none => exact h'.unlinked place he target
      | some e =>
        intro hlink
        have hnot : ∀ entries refusal, e ≠ .directory entries refusal := by
          rintro entries refusal rfl
          obtain ⟨_, _, hd⟩ := h'.at?_directory ⟨entries, refusal, he⟩
          rw [hlink] at hd; cases hd
        rw [h'.at?_eq he hnot, Option.some.injEq] at hlink
        exact h.unlinked place hnone target (hlink ▸ he)

/-! ## Paths that lead where they led -/

/-- Directories of one tree are directories of another one, and the links are the same. -/
structure Leads (t t' : FileTree) : Prop where
  current : t'.current = t.current
  directory : ∀ place, t.HasDirectory place → t'.HasDirectory place
  link : ∀ place target, t'.at? place = some (.link target) ↔ t.at? place = some (.link target)

theorem Grown.leads (h : Grown t t') : Leads t t' := by
  refine ⟨h.current, fun place => h.at?_directory, fun place target => ⟨fun hlink => ?_, fun hlink =>
    h.at?_eq hlink (by simp)⟩⟩
  by_contra hnot
  by_cases hnone : t.at? place = none
  · exact h.unlinked place hnone target hlink
  · rcases h.kept place hnone with heq | ⟨_, -, entries, hd⟩
    · exact hnot (heq.trans hlink)
    · rw [hlink] at hd; cases hd

/-- A last step to no link leads to the name, whatever stands there. -/
theorem follow_last (t : FileTree) (links : Nat) (here : Place) {step : String} (hup : step ≠ "..")
    (hnot : ∀ target, t.at? (here ++ [step]) ≠ some (.link target)) :
    t.follow links here [step] = .ok (here ++ [step]) := by
  rw [follow, if_neg (by simpa using hup)]
  simp only
  cases he : t.at? (here ++ [step]) with
  | none => rfl
  | some e =>
    cases e with
    | link target => exact absurd he (hnot target)
    | file content => rfl
    | directory entries refusal => simp only [follow]

/-- Steps that lead to a place lead to it in the other tree. -/
theorem follow_leads (h : Leads t t') {links : Nat} {here : Place} {steps : List String}
    (hf : t.follow links here steps = .ok place) : t'.follow links here steps = .ok place := by
  -- Where no link and no directory stands, only the last step leads.
  have last : ∀ {links : Nat} {here : Place} {step : String}, ¬ (step == "..") = true →
      (∀ target, t.at? (here ++ [step]) ≠ some (.link target)) →
        Except.ok (here ++ [step]) = (Except.ok place : Except TreeError Place) →
          t'.follow links here [step] = .ok place := fun hup hnot hf =>
    (follow_last t' _ _ (by simpa using hup) fun target => mt (h.link _ target).1 (hnot target)).trans hf
  fun_induction t.follow links here steps with
  | case1 links here => rwa [follow]
  | case2 links here step rest hup ih =>
    rw [follow, if_pos hup]
    exact ih hf
  | case3 links here step rest hup next hnone hempty =>
    obtain rfl := List.isEmpty_iff.1 hempty
    exact last hup (fun target hlink => by rw [hnone] at hlink; cases hlink) hf
  | case4 links here step rest hup next hnone hempty => cases hf
  | case5 links here step rest hup next entries refusal he ih =>
    obtain ⟨entries', refusal', he'⟩ := h.directory _ ⟨entries, refusal, he⟩
    rw [follow, if_neg hup]
    simp only [next, he']
    exact ih hf
  | case6 links here step rest hup next content he hempty =>
    obtain rfl := List.isEmpty_iff.1 hempty
    exact last hup (fun target hlink => by rw [he] at hlink; cases hlink) hf
  | case7 links here step rest hup next content he hempty => cases hf
  | case8 here step rest hup next target he => cases hf
  | case9 here step rest hup next target he links linked ih =>
    rw [follow, if_neg hup]
    simp only [next, (h.link _ target).2 he]
    exact ih hf

/-- A path that leads to a place leads to it in the other tree. -/
theorem placeOf_leads (h : Leads t t') (hp : t.placeOf path = .ok place) :
    t'.placeOf path = .ok place := by
  unfold placeOf at hp ⊢
  rw [h.current]
  split at hp
  · exact follow_leads h hp
  · cases hp

/-! ## The place of an entry itself -/

/-- Relative paths start at a directory. -/
def Standing (t : FileTree) : Prop :=
  ∀ place, t.current = some place → t.HasDirectory place

theorem Standing.grown (hs : t.Standing) (h : Grown t t') : t'.Standing :=
  fun place hp => h.at?_directory (hs place (h.current.symm.trans hp))

/-- Steps from a directory lead to a place in a directory. -/
theorem follow_above {links : Nat} {here : Place} {steps : List String} (hhere : t.HasDirectory here)
    (hf : t.follow links here steps = .ok place) : t.HasDirectory place.dropLast := by
  fun_induction t.follow links here steps with
  | case1 links here => cases hf; exact hhere.dropLast
  | case2 links here step rest hup ih => exact ih hhere.dropLast hf
  | case3 => rwa [← Except.ok.inj hf, List.dropLast_concat]
  | case4 => cases hf
  | case5 links here step rest hup next entries refusal he ih => exact ih ⟨entries, refusal, he⟩ hf
  | case6 => rwa [← Except.ok.inj hf, List.dropLast_concat]
  | case7 => cases hf
  | case8 => cases hf
  | case9 here step rest hup next target he links linked ih =>
    refine ih ?_ hf
    split
    · exact hasDirectory_nil t
    · exact hhere

theorem placeOf_above (hs : t.Standing) (hp : t.placeOf path = .ok place) :
    t.HasDirectory place.dropLast := by
  unfold placeOf at hp
  split at hp
  · rename_i start hstart
    refine follow_above ?_ hp
    split at hstart
    · cases hstart; exact hasDirectory_nil t
    · exact hs start hstart
  · cases hp

/-- A step from where other steps lead to. -/
theorem follow_concat {links : Nat} {here mid : Place} {steps : List String} (hmid : t.HasDirectory mid)
    (hf : t.follow links here steps = .ok mid) :
    ∃ left, ∀ step, t.follow links here (steps ++ [step]) = t.follow left mid [step] := by
  obtain ⟨entries, refusal, hentries⟩ := hmid
  fun_induction t.follow links here steps with
  | case1 links here => cases hf; exact ⟨links, fun _ => rfl⟩
  | case2 links here step rest hup ih =>
    obtain ⟨left, hleft⟩ := ih hf
    exact ⟨left, fun last => by rw [List.cons_append, follow, if_pos hup, hleft]⟩
  | case3 links here step rest hup next hnone =>
    rw [Except.ok.inj hf, hentries] at hnone; cases hnone
  | case4 => cases hf
  | case5 links here step rest hup next inner r he ih =>
    obtain ⟨left, hleft⟩ := ih hf
    refine ⟨left, fun last => ?_⟩
    rw [List.cons_append, follow, if_neg hup]
    simp only [next, he]
    exact hleft last
  | case6 links here step rest hup next content he =>
    rw [Except.ok.inj hf, hentries] at he; cases he
  | case7 => cases hf
  | case8 => cases hf
  | case9 here step rest hup next target he links linked ih =>
    obtain ⟨left, hleft⟩ := ih hf
    refine ⟨left, fun last => ?_⟩
    rw [List.cons_append, follow, if_neg hup]
    simp only [next, he]
    rw [← hleft last, List.append_assoc]
    rfl

/-- A name behind a path to a directory leads to what stands there under the name, if it is no link. -/
theorem placeOf_child {above : Place} {name : String} (hp : t.placeOf path = .ok above)
    (hd : t.HasDirectory above) (hup : name ≠ "..")
    (hnot : ∀ target, t.at? (above ++ [name]) ≠ some (.link target)) :
    t.placeOf (path.child name) = .ok (above ++ [name]) := by
  unfold placeOf at hp ⊢
  have hroot : (path.child name).isAbsolute = path.isAbsolute := rfl
  rw [hroot]
  split at hp
  · rename_i start hstart
    obtain ⟨left, hleft⟩ := follow_concat hd hp
    exact (hleft name).trans (follow_last t left above hup hnot)
  · cases hp

theorem child_parent (hne : path.names ≠ []) : path.parent.child path.name = path := by
  have hnames : path.names.dropLast ++ [path.names.getLast?.getD ""] = path.names := by
    rw [List.getLast?_eq_some_getLast hne]
    exact List.dropLast_concat_getLast hne
  exact congrArg (FilePath.mk path.root) hnames

/-- Where the last name of a path itself stands: where the path leads to if it has no name at its end,
    and else in the directory that the path above leads to. -/
theorem ownPlace_cases (hp : t.ownPlace path = .ok place) :
    (path.names.isEmpty || path.name == "..") = true ∧ t.placeOf path = .ok place ∨
      path.names ≠ [] ∧ path.name ≠ ".." ∧ ∃ above, t.placeOf path.parent = .ok above ∧
        t.HasDirectory above ∧ place = above ++ [path.name] := by
  unfold ownPlace at hp
  split at hp
  · rename_i hlast
    exact Or.inl ⟨hlast, hp⟩
  · rename_i hlast
    simp only [Bool.or_eq_true, List.isEmpty_iff, beq_iff_eq, not_or] at hlast
    cases habove : t.placeOf path.parent with
    | error e => rw [habove] at hp; cases hp
    | ok above =>
      rw [habove] at hp
      simp only [bind, Except.bind] at hp
      split at hp
      · rename_i entries refusal he
        exact Or.inr ⟨hlast.1, hlast.2, above, rfl, ⟨entries, refusal, he⟩, (Except.ok.inj hp).symm⟩
      · cases hp
      · cases hp

theorem ownPlace_eq {above : Place} (hne : path.names ≠ []) (hup : path.name ≠ "..")
    (hp : t.placeOf path.parent = .ok above) (hd : t.HasDirectory above) :
    t.ownPlace path = .ok (above ++ [path.name]) := by
  obtain ⟨entries, refusal, he⟩ := hd
  unfold ownPlace
  rw [if_neg (by simp [hne, hup]), hp]
  simp only [bind, Except.bind, he]

/-- A name below a directory stands in the directory. -/
theorem ownPlace_child {above : Place} {name : String} (hp : t.placeOf path = .ok above)
    (hd : t.HasDirectory above) (hup : name ≠ "..") :
    t.ownPlace (path.child name) = .ok (above ++ [name]) := by
  have hne : (path.child name).names ≠ [] := by simp [FilePath.child]
  have h := ownPlace_eq hne (by simpa using hup) (by simpa using hp) hd
  simpa using h

/-- A name has a place only below a directory. -/
theorem isDirectory_of_ownPlace_child {name : String} (hup : name ≠ "..")
    (hp : t.ownPlace (path.child name) = .ok place) : t.isDirectory path = true := by
  rcases ownPlace_cases hp with ⟨hlast, -⟩ | ⟨-, -, above, habove, hd, -⟩
  · rw [FilePath.name_child] at hlast
    simp [FilePath.child, hup] at hlast
  · rw [FilePath.parent_child] at habove
    exact isDirectory_iff.2 ⟨above, habove, hd⟩

/-- Without a directory above it the last name of a path has no place. -/
theorem ownPlace_missing {above : Place} (hne : path.names ≠ []) (hup : path.name ≠ "..")
    (hnone : t.at? above = none)
    (hp : t.placeOf path.parent = .error .missing ∨ t.placeOf path.parent = .ok above) :
    t.ownPlace path = .error .missing := by
  unfold ownPlace
  rw [if_neg (by simp [hne, hup])]
  rcases hp with hp | hp
  · rw [hp]
    rfl
  · rw [hp]
    simp only [bind, Except.bind, hnone]

theorem ownPlace_above (hs : t.Standing) (hp : t.ownPlace path = .ok place) :
    t.HasDirectory place.dropLast := by
  rcases ownPlace_cases hp with ⟨-, hp⟩ | ⟨-, -, above, -, hd, rfl⟩
  · exact placeOf_above hs hp
  · rwa [List.dropLast_concat]

/-- A path leads to where its last name stands, if no link stands there. -/
theorem placeOf_of_ownPlace (hp : t.ownPlace path = .ok place)
    (hnot : ∀ target, t.at? place ≠ some (.link target)) : t.placeOf path = .ok place := by
  rcases ownPlace_cases hp with ⟨-, hp⟩ | ⟨hne, hup, above, habove, hd, rfl⟩
  · exact hp
  · have hchild := placeOf_child habove hd hup hnot
    rwa [child_parent hne] at hchild

theorem ownPlace_leads (h : Leads t t') (hp : t.ownPlace path = .ok place) :
    t'.ownPlace path = .ok place := by
  rcases ownPlace_cases hp with ⟨hlast, hplace⟩ | ⟨hne, hup, above, habove, hd, rfl⟩
  · unfold ownPlace
    rw [if_pos hlast]
    exact placeOf_leads h hplace
  · exact ownPlace_eq hne hup (placeOf_leads h habove) (h.directory _ hd)

/-! ## What is put where nothing was -/

/-- What is put where nothing was leaves the other places alike. -/
theorem alike_put {entry : Entry} (hbelow : Directory.NothingBelow (some entry))
    (hnone : t.at? place = none) {other : Place} (hne : other ≠ place) :
    Alike (t.at? other) ({ t with root := t.root.putAt entry place }.at? other) :=
  Directory.at?_putAt hbelow
    (fun inner refusal hi => by rw [show t.root.at? place = none from hnone] at hi; cases hi) hne

/-- A tree grows by what is put where nothing was, unless it is a link. -/
theorem grown_put {entry : Entry} (hbelow : Directory.NothingBelow (some entry))
    (hnot : ∀ target, entry ≠ .link target) (hnone : t.at? place = none) :
    Grown t { t with root := t.root.putAt entry place } := by
  refine ⟨rfl, fun other hother => alike_put hbelow hnone ?_, fun other hother target hlink => ?_⟩
  · rintro rfl
    exact hother hnone
  · by_cases hp : other = place
    · subst hp
      rcases Directory.at?_putAt_self entry t.root other with hself | hself
      · exact hnot target (Option.some.inj (hself.symm.trans hlink))
      · rw [show t.root.at? other = none from hnone] at hself
        cases hself.symm.trans hlink
    · have heq := (alike_put hbelow hnone hp).eq_of_not_directory (by simp [hother])
      rw [heq, hother] at hlink
      cases hlink

/-- What is put in a directory stands there. -/
theorem at?_put (entry : Entry) (hd : t.HasDirectory place.dropLast) (hne : place ≠ []) :
    { t with root := t.root.putAt entry place }.at? place = some entry :=
  Directory.at?_putAt_of_above hne hd

/-- A file where nothing was makes no directory. -/
theorem hasDirectory_put_file (content : ByteArray) (hd : t.HasDirectory place.dropLast)
    (hnone : t.at? place = none) {other : Place}
    (h : { t with root := t.root.putAt (.file content) place }.HasDirectory other) :
    t.HasDirectory other := by
  have hbelow : Directory.NothingBelow (some (.file content)) :=
    Directory.nothingBelow_of_not_directory (by simp)
  have hne : place ≠ [] := by
    rintro rfl
    cases hnone
  obtain ⟨entries, refusal, he⟩ := h
  by_cases heq : other = place
  · rw [heq, at?_put (.file content) hd hne] at he
    cases he
  · rcases alike_put hbelow hnone heq with hsame | ⟨r, ⟨inner, hold⟩, -⟩
    · exact ⟨entries, refusal, hsame.trans he⟩
    · exact ⟨inner, r, hold⟩

end FileTree

end RouteAtlas
