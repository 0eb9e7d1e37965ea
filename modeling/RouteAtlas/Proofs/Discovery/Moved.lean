/-
  RouteAtlas: what is found when a tree is moved.

  * `SameTree t place t' place'`: the same stands below two places of two trees: files with their content,
    directories with their refusals, and links that lead to the same;
  * `placeText_le_iff`: the place in front of what is below it takes no part in the order of paths;
  * `find_moved`: below two places where the same stands, the same is found, in the same order.
-/
import Mathlib.Data.Set.List
import Mathlib.Data.String.Basic
import RouteAtlas.Proofs.Discovery.Found
import RouteAtlas.Proofs.Location

namespace RouteAtlas

namespace FileTree

/-- A link stands at a place. -/
def HasLink (t : FileTree) (place : Place) : Prop :=
  ∃ target, t.at? place = some (.link target)

/-- A directory that can be read, or one that refuses it with a reason, stands at a place. -/
def HasDirectoryWith (t : FileTree) (refusal : Option String) (place : Place) : Prop :=
  ∃ entries, t.at? place = some (.directory entries refusal)

/-- The same tree stands at two places: the same files and directories, and links that lead to the same.
    What the links spell may differ. -/
structure SameTree (t : FileTree) (place : Place) (t' : FileTree) (place' : Place) : Prop where
  file : ∀ below content,
    t.at? (place ++ below) = some (.file content) ↔ t'.at? (place' ++ below) = some (.file content)
  directory : ∀ below refusal,
    t.HasDirectoryWith refusal (place ++ below) ↔ t'.HasDirectoryWith refusal (place' ++ below)
  link : ∀ below, t.HasLink (place ++ below) ↔ t'.HasLink (place' ++ below)
  leads : ∀ below, t.HasLink (place ++ below) →
    t.leadsToDirectory (place ++ below) = t'.leadsToDirectory (place' ++ below)
  content : ∀ below, t.HasLink (place ++ below) → ∀ content,
    t.read ⟨"/", place ++ below⟩ = .ok content ↔ t'.read ⟨"/", place' ++ below⟩ = .ok content

variable {t t' : FileTree} {place place' : Place}

theorem SameTree.symm (h : SameTree t place t' place') : SameTree t' place' t place where
  file below content := (h.file below content).symm
  directory below refusal := (h.directory below refusal).symm
  link below := (h.link below).symm
  leads below hlink := (h.leads below ((h.link below).2 hlink)).symm
  content below hlink content := (h.content below ((h.link below).2 hlink) content).symm

theorem SameTree.hasDirectory_iff (h : SameTree t place t' place') :
    t.HasDirectory place ↔ t'.HasDirectory place' := by
  have hroot := fun refusal => h.directory [] refusal
  simp only [List.append_nil] at hroot
  constructor
  · rintro ⟨entries, refusal, he⟩
    obtain ⟨entries', he'⟩ := (hroot refusal).1 ⟨entries, he⟩
    exact ⟨entries', refusal, he'⟩
  · rintro ⟨entries, refusal, he⟩
    obtain ⟨entries', he'⟩ := (hroot refusal).2 ⟨entries, he⟩
    exact ⟨entries', refusal, he'⟩

end FileTree

namespace Discovery

open RouteAtlas.Text

variable {t t' : FileTree} {place place' : Place} {entries entries' : Directory}
  {refusal refusal' : Option String} {marker : String} {ignored : List String}

/-! ## What stands below -/

/-- The same entries are the same tree, if their links lead to the same. -/
theorem sameTree_of_entries (he : t.at? place = some (.directory entries refusal))
    (he' : t'.at? place' = some (.directory entries refusal))
    (hlinks : ∀ below target, entries.at? below = some (.link target) →
      t.leadsToDirectory (place ++ below) = t'.leadsToDirectory (place' ++ below) ∧
        ∀ content, t.read ⟨"/", place ++ below⟩ = .ok content ↔
          t'.read ⟨"/", place' ++ below⟩ = .ok content) : t.SameTree place t' place' := by
  have hsame : ∀ below, t.at? (place ++ below) = t'.at? (place' ++ below) := fun below => by
    rw [at?_below he, at?_below he']
  have hlink : ∀ below, t.HasLink (place ++ below) →
      ∃ target, entries.at? below = some (.link target) := by
    rintro below ⟨target, hat⟩
    rw [at?_below he] at hat
    cases below with
    | nil => rw [Entry.at?_nil] at hat; cases hat
    | cons n rest => exact ⟨target, hat⟩
  refine ⟨fun below content => by rw [hsame], fun below r => ?_, fun below => ?_, fun below h => ?_,
    fun below h => ?_⟩
  · unfold FileTree.HasDirectoryWith
    rw [hsame]
  · unfold FileTree.HasLink
    rw [hsame]
  · obtain ⟨target, hat⟩ := hlink below h
    exact (hlinks below target hat).1
  · obtain ⟨target, hat⟩ := hlink below h
    exact (hlinks below target hat).2

/-- What stands below a directory stands below the other one. -/
theorem Stands.moved (h : t.SameTree place t' place')
    (he : t.at? place = some (.directory entries refusal))
    (he' : t'.at? place' = some (.directory entries' refusal')) {above : Place} {name : String}
    (hs : Stands t place entries marker ignored above name) :
    Stands t' place' entries' marker ignored above name := by
  obtain ⟨⟨e, hat, htarget⟩, hmarked, hseen⟩ := hs
  rw [← at?_inside he, List.append_assoc] at hat
  rw [List.append_assoc] at htarget
  refine ⟨?_, hmarked, hseen⟩
  rw [← at?_inside he', List.append_assoc]
  cases e with
  | file content => exact ⟨_, (h.file _ content).1 hat, trivial⟩
  | link target =>
    obtain ⟨target', hat'⟩ := (h.link _).1 ⟨target, hat⟩
    exact ⟨_, hat', (h.leads _ ⟨target, hat⟩).symm.trans htarget⟩
  | directory inner r => exact htarget.elim

/-! ## The order of paths -/

theorem append_lt_append_iff (front : List Char) {cs cs' : List Char} :
    front ++ cs < front ++ cs' ↔ cs < cs' := by
  induction front with
  | nil => rfl
  | cons c front ih => rw [List.cons_append, List.cons_append, List.cons_lt_cons_iff, ih]; simp

/-- What stands in front of two places takes no part in their order. -/
theorem placeText_le_iff {below other : Place} (hbelow : below ≠ []) (hother : other ≠ []) :
    Place.text (place ++ below) ≤ Place.text (place ++ other) ↔ Place.text below ≤ Place.text other := by
  rw [← not_lt, ← not_lt, String.lt_iff_toList_lt, String.lt_iff_toList_lt,
    Location.placeText_toList (by simp [hother]), Location.placeText_toList (by simp [hbelow]),
    Location.placeText_toList hother, Location.placeText_toList hbelow, List.map_append,
    List.map_append, Location.slashed_append, Location.slashed_append, append_lt_append_iff]

theorem placeText_eq_iff {below other : Place} (hbelow : below ≠ []) (hother : other ≠ []) :
    Place.text (place ++ below) = Place.text (place ++ other) ↔ Place.text below = Place.text other := by
  rw [le_antisymm_iff, le_antisymm_iff, placeText_le_iff hbelow hother, placeText_le_iff hother hbelow]

/-! ## What is found -/

/-- What is found stands at a relative place below a directory. -/
def StandsAt (t : FileTree) (place : Place) (entries : Directory) (marker : String)
    (ignored : List String) (below : Place) : Prop :=
  ∃ above name, below = above ++ [name] ∧ Stands t place entries marker ignored above name

theorem StandsAt.ne_nil {below : Place} (h : StandsAt t place entries marker ignored below) :
    below ≠ [] := by
  obtain ⟨above, name, rfl, -⟩ := h
  simp

theorem StandsAt.names (ht : t.Named) (he : t.at? place = some (.directory entries refusal))
    {below : Place} (h : StandsAt t place entries marker ignored below) :
    ∀ name ∈ place ++ below, IsEntryName name := by
  obtain ⟨above, name, rfl, hs⟩ := h
  obtain ⟨e, hat, -⟩ := hs.entry
  rw [← at?_inside he, List.append_assoc] at hat
  exact (ht.entry hat).2

theorem StandsAt.moved (h : t.SameTree place t' place')
    (he : t.at? place = some (.directory entries refusal))
    (he' : t'.at? place' = some (.directory entries' refusal')) {below : Place}
    (hs : StandsAt t place entries marker ignored below) :
    StandsAt t' place' entries' marker ignored below := by
  obtain ⟨above, name, rfl, hs⟩ := hs
  exact ⟨above, name, rfl, hs.moved h he he'⟩

/-- What is found below a place can be read where it can be read below the other one. -/
theorem read_moved (ht : t.Named) (ht' : t'.Named) (h : t.SameTree place t' place')
    (he : t.at? place = some (.directory entries refusal)) {below : Place}
    (hs : StandsAt t place entries marker ignored below) (content : ByteArray) :
    t.read ⟨"/", place ++ below⟩ = .ok content ↔ t'.read ⟨"/", place' ++ below⟩ = .ok content := by
  obtain ⟨above, name, rfl, hs⟩ := hs
  obtain ⟨e, hat, htarget⟩ := hs.entry
  rw [← at?_inside he, List.append_assoc] at hat
  cases e with
  | file found =>
    have hat' := (h.file _ found).1 hat
    rw [FileTree.read_place (ht.entry hat).2 hat, FileTree.read_place (ht'.entry hat').2 hat']
  | link target => exact h.content _ ⟨target, hat⟩ content
  | directory inner r => exact htarget.elim

/-- What is found in a directory are the paths of what stands below it. -/
theorem mem_found_iff (ht : t.Named) (he : t.at? place = some (.directory entries refusal)) {file : String} :
    file ∈ routeFilesIn t marker ignored place entries ↔
      ∃ below, StandsAt t place entries marker ignored below ∧ Place.text (place ++ below) = file := by
  rw [mem_routeFilesIn_iff (ht.entry he).1 rfl]
  constructor
  · rintro ⟨above, name, hs, rfl⟩
    exact ⟨_, ⟨above, name, rfl, hs⟩, by rw [List.append_assoc]⟩
  · rintro ⟨below, ⟨above, name, rfl, hs⟩, rfl⟩
    exact ⟨above, name, hs, by rw [List.append_assoc]⟩

theorem nodup_found (ht : t.Named) (he : t.at? place = some (.directory entries refusal)) :
    (routeFilesIn t marker ignored place entries).Nodup :=
  nodup_routeFilesIn (ht.entry he).1 rfl fun n hn => ((ht.entry he).2 n hn).toIsPart

/-- What is found in a directory, by relative places. -/
theorem exists_belows (ht : t.Named) (he : t.at? place = some (.directory entries refusal)) :
    ∃ belows : List Place, (∀ below ∈ belows, StandsAt t place entries marker ignored below) ∧
      FileTree.sorted (routeFilesIn t marker ignored place entries) =
        belows.map fun below => Place.text (place ++ below) := by
  obtain ⟨found, hfound⟩ := (Set.range_list_map fun b :
    {below // StandsAt t place entries marker ignored below} => Place.text (place ++ b.1)).ge
      fun file hfile =>
        let ⟨below, hs, hpath⟩ := (mem_found_iff ht he).1 ((FileTree.perm_sorted _).mem_iff.1 hfile)
        ⟨⟨below, hs⟩, hpath⟩
  refine ⟨found.map Subtype.val, ?_, by rw [← hfound, List.map_map]; rfl⟩
  simp only [List.mem_map]
  rintro below ⟨b, -, rfl⟩
  exact b.2

/-- Behind another place the same relative places are in order, and each is there once. -/
theorem sorted_moved {belows : List Place} (hne : ∀ below ∈ belows, below ≠ [])
    {order : String → String → Prop} (horder : ∀ {below other : Place}, below ≠ [] → other ≠ [] →
      (order (Place.text (place ++ below)) (Place.text (place ++ other)) ↔
        order (Place.text (place' ++ below)) (Place.text (place' ++ other))))
    (h : (belows.map fun below => Place.text (place ++ below)).Pairwise order) :
    (belows.map fun below => Place.text (place' ++ below)).Pairwise order :=
  List.pairwise_map.2 ((List.pairwise_map.1 h).imp_of_mem fun hb hc =>
    (horder (hne _ hb) (hne _ hc)).1)

/-- In the other directory the same relative places are found, in the same order. -/
theorem found_moved (ht : t.Named) (ht' : t'.Named) (h : t.SameTree place t' place')
    (he : t.at? place = some (.directory entries refusal))
    (he' : t'.at? place' = some (.directory entries' refusal'))
    {belows : List Place} (hbelows : ∀ below ∈ belows, StandsAt t place entries marker ignored below)
    (hfound : FileTree.sorted (routeFilesIn t marker ignored place entries) =
      belows.map fun below => Place.text (place ++ below)) :
    FileTree.sorted (routeFilesIn t' marker ignored place' entries') =
      belows.map fun below => Place.text (place' ++ below) := by
  have hne : ∀ below ∈ belows, below ≠ [] := fun below hbelow => (hbelows below hbelow).ne_nil
  have heq : ∀ {below other : Place}, below ≠ [] → other ≠ [] →
      (Place.text (place ++ below) = Place.text (place ++ other) ↔
        Place.text (place' ++ below) = Place.text (place' ++ other)) := fun hb ho => by
    rw [placeText_eq_iff hb ho, placeText_eq_iff hb ho]
  have hordered := FileTree.pairwise_sorted (routeFilesIn t marker ignored place entries)
  have hnodup : (FileTree.sorted (routeFilesIn t marker ignored place entries)).Nodup :=
    (FileTree.perm_sorted _).nodup_iff.2 (nodup_found ht he)
  rw [hfound] at hordered hnodup
  have hsorted : (belows.map fun below => Place.text (place' ++ below)).Pairwise (· ≤ ·) :=
    sorted_moved hne (fun hb ho => by rw [placeText_le_iff hb ho, placeText_le_iff hb ho]) hordered
  have honce : (belows.map fun below => Place.text (place' ++ below)).Nodup :=
    sorted_moved hne (fun hb ho => not_congr (heq hb ho)) hnodup
  have hperm : (routeFilesIn t' marker ignored place' entries').Perm
      (belows.map fun below => Place.text (place' ++ below)) := by
    refine (List.perm_ext_iff_of_nodup (nodup_found ht' he') honce).2 fun file => ?_
    rw [mem_found_iff ht' he', List.mem_map]
    constructor
    · rintro ⟨other, hs, rfl⟩
      have hthere : Place.text (place ++ other) ∈
          belows.map fun below => Place.text (place ++ below) :=
        hfound ▸ (FileTree.perm_sorted _).mem_iff.2
          ((mem_found_iff ht he).2 ⟨other, hs.moved h.symm he' he, rfl⟩)
      obtain ⟨below, hbelow, hsame⟩ := List.mem_map.1 hthere
      exact ⟨below, hbelow, (heq (hne below hbelow) hs.ne_nil).1 hsame⟩
    · rintro ⟨below, hbelow, rfl⟩
      exact ⟨below, (hbelows below hbelow).moved h he he', rfl⟩
  exact ((FileTree.perm_sorted _).trans hperm).eq_of_pairwise
    (fun a b _ _ hab hba => String.le_antisymm hab hba) (FileTree.pairwise_sorted _) hsorted

/-- Below two places where the same stands, the walk stops or comes to its end. -/
theorem refusals_moved (ht : t.Named) (ht' : t'.Named) (h : t.SameTree place t' place') {e e' : Entry}
    (he : t.at? place = some e) (he' : t'.at? place' = some e')
    (hnone : e.refusals ignored place = []) : e'.refusals ignored place' = [] := by
  rw [List.eq_nil_iff_forall_not_mem]
  rintro ⟨p, reason⟩ hmem
  obtain ⟨above, inner, -, hseen, hat⟩ := (Entry.mem_refusals_iff (ht'.entry he').1).1 hmem
  rw [← at?_below he'] at hat
  obtain ⟨inner', hat'⟩ := (h.directory above (some reason)).2 ⟨inner, hat⟩
  rw [at?_below he] at hat'
  have hthere : (place ++ above, reason) ∈ e.refusals ignored place :=
    (Entry.mem_refusals_iff (ht.entry he).1).2 ⟨above, inner', rfl, hseen, hat'⟩
  rw [hnone] at hthere
  cases hthere

/-- **What is found does not depend on where the tree stands.**  Below two places where the same stands,
    the same is found in the same order, if a directory stands there at all and the walk through it does
    not stop. -/
theorem find_moved (ht : t.Named) (ht' : t'.Named) (h : t.SameTree place t' place')
    {root root' : FilePath} (hroot : t.placeOf root = .ok place) (hroot' : t'.placeOf root' = .ok place') :
    (∃ e e', find t root marker ignored = .error e ∧ find t' root' marker ignored = .error e') ∨
    ∃ (entries : Directory) (belows : List Place), t.at? place = some (.directory entries) ∧
      (∀ below ∈ belows, StandsAt t place entries marker ignored below) ∧
      find t root marker ignored = .ok (belows.map fun below => Place.text (place ++ below)) ∧
      find t' root' marker ignored = .ok (belows.map fun below => Place.text (place' ++ below)) := by
  have stands : ∀ {t : FileTree} {place : Place} {root : FilePath}, t.placeOf root = .ok place →
      (t.isDirectory root = true ↔ t.HasDirectory place) := fun hroot => by
    rw [FileTree.isDirectory_iff, hroot]
    simp
  rcases find_cases t root marker ignored with hd | ⟨p, reason, hstops⟩ |
    ⟨_, entries, hp, he, hnone, hf⟩
  · have hd' : t'.isDirectory root' = false := by
      rw [← Bool.not_eq_true, stands hroot', ← h.hasDirectory_iff, ← stands hroot, hd]
      simp
    exact Or.inl ⟨_, _, find_eq_error hd, find_eq_error hd'⟩
  · rcases find_cases t' root' marker ignored with hd' | ⟨p', reason', hstops'⟩ |
      ⟨_, entries', hp', he', hnone', -⟩
    · exact Or.inl ⟨_, _, hstops.find_eq, find_eq_error hd'⟩
    · exact Or.inl ⟨_, _, hstops.find_eq, hstops'.find_eq⟩
    · -- The walk that comes to its end comes to it in the other tree.
      obtain ⟨start, inner, refusal, rest, hp, he, hrefusals⟩ := hstops
      rw [hroot] at hp
      rw [hroot'] at hp'
      cases hp
      cases hp'
      rw [refusals_moved ht' ht h.symm he' he hnone'] at hrefusals
      cases hrefusals
  · rw [hroot] at hp
    cases hp
    obtain ⟨entries', refusal', he'⟩ := h.hasDirectory_iff.1 ⟨entries, none, he⟩
    obtain ⟨belows, hbelows, hfound⟩ := @exists_belows t place entries none marker ignored ht he
    refine Or.inr ⟨entries, belows, he, hbelows, hf.trans (by rw [hfound]), ?_⟩
    rw [find_eq, hroot']
    simp only [he', refusals_moved ht ht' h he he' hnone, found_moved ht ht' h he he' hbelows hfound]

end Discovery

end RouteAtlas
