/-
  RouteAtlas: which files are route files.

  * `Stands` says what is found below a directory, and where (`mem_routeFilesIn_iff`), each once
    (`nodup_routeFilesIn`); in a plain directory these are the route files (`mem_routeFilesIn`);
  * `exists_of_mem_find`: what is found stands at its path, under a name that ends with the marker;
  * `find_spared`: a change that spares the files whose names end with the marker changes nothing of
    what is found, and `read_spared`: nor of what is read from it.
-/
import Mathlib.Data.List.Nodup
import RouteAtlas.Proofs.Discovery
import RouteAtlas.Proofs.FileTree.Change

namespace RouteAtlas.Discovery

open RouteAtlas.Text

variable {t t' : FileTree} {marker : String} {ignored : List String}

/-- A route file stands below a directory, behind some names: its own name ends with the marker, and
    none of the directories on the way is ignored. -/
structure IsRouteFile (entries : Directory) (marker : String) (ignored : List String)
    (above : Place) (name : String) : Prop where
  file : ∃ content, entries.at? (above ++ [name]) = some (.file content)
  marked : endsWith marker name = true
  seen : ∀ n ∈ above, n ∉ ignored

/-- What can be found at a place: a file, or a link that does not lead to a directory. -/
def IsTarget (t : FileTree) (place : Place) : Entry → Prop
  | .file _ => True
  | .link _ => t.leadsToDirectory place = false
  | .directory .. => False

theorem IsTarget.not_directory {place : Place} {e : Entry} (h : IsTarget t place e) (inner : Directory)
    (refusal : Option String) : e ≠ .directory inner refusal := by
  rintro rfl
  exact h

/-- What is found stands below a directory at a place, behind some names: its own name ends with the
    marker, and none of the directories on the way is ignored. -/
structure Stands (t : FileTree) (place : Place) (entries : Directory) (marker : String)
    (ignored : List String) (above : Place) (name : String) : Prop where
  entry : ∃ e, entries.at? (above ++ [name]) = some e ∧ IsTarget t (place ++ above ++ [name]) e
  marked : endsWith marker name = true
  seen : ∀ n ∈ above, n ∉ ignored

/-! ## Membership -/

theorem routeFilesIn_eq (place : Place) (entries : Directory) :
    routeFilesIn t marker ignored place entries =
      entries.flatMap fun e => routeFilesAt t marker ignored (place ++ [e.1]) e.1 e.2 := by
  induction entries with
  | nil => rfl
  | cons e entries ih => rw [routeFilesIn, ih, List.flatMap_cons]

/-- What is no directory is found at its own place, under a name that ends with the marker. -/
theorem mem_routeFilesAt {place : Place} {name text : String} {e : Entry}
    (hne : ∀ inner refusal, e ≠ .directory inner refusal) :
    text ∈ routeFilesAt t marker ignored place name e ↔
      IsTarget t place e ∧ endsWith marker name = true ∧ text = place.text := by
  cases e with
  | file content => simp [routeFilesAt, IsTarget]
  | link target => simp [routeFilesAt, IsTarget, and_comm, and_left_comm]
  | directory inner refusal => exact absurd rfl (hne inner refusal)

section
variable {names links : String → Prop} {place : Place} {entries inner : Directory}
  {refusal : Option String} {n name : String} {above : Place}

/-- What stands right below a directory is one of its entries. -/
theorem stands_nil : Stands t place entries marker ignored [] name ↔
    ∃ e, entries.lookup name = some e ∧ IsTarget t (place ++ [name]) e ∧ endsWith marker name = true := by
  have hat : entries.at? ([] ++ [name]) = entries.lookup name := by
    rw [List.nil_append, Directory.at?_cons]
    simp
  constructor
  · rintro ⟨⟨e, he, htarget⟩, hmarked, -⟩
    exact ⟨e, hat ▸ he, by simpa using htarget, hmarked⟩
  · rintro ⟨e, he, htarget, hmarked⟩
    exact ⟨⟨e, hat.trans he, by simpa using htarget⟩, hmarked, by simp⟩

/-- Behind one more name stands what stands in the directory under the name. -/
theorem stands_cons (hlookup : entries.lookup n = some (.directory inner refusal)) :
    Stands t place entries marker ignored (n :: above) name ↔
      n ∉ ignored ∧ Stands t (place ++ [n]) inner marker ignored above name := by
  have hat : entries.at? (n :: above ++ [name]) = inner.at? (above ++ [name]) := by
    rw [List.cons_append, Directory.at?_cons, hlookup]
    exact Entry.at?_directory (by simp) inner refusal
  have hplace : place ++ n :: above ++ [name] = place ++ [n] ++ above ++ [name] := by simp
  constructor
  · rintro ⟨hentry, hmarked, hseen⟩
    rw [hat, hplace] at hentry
    obtain ⟨hn, habove⟩ := List.forall_mem_cons.1 hseen
    exact ⟨hn, hentry, hmarked, habove⟩
  · rintro ⟨hn, hentry, hmarked, hseen⟩
    rw [← hat, ← hplace] at hentry
    exact ⟨hentry, hmarked, List.forall_mem_cons.2 ⟨hn, hseen⟩⟩

/-- Something stands behind one more name only where this names a directory. -/
theorem Stands.lookup (h : Stands t place entries marker ignored (n :: above) name) :
    ∃ inner refusal, entries.lookup n = some (.directory inner refusal) := by
  obtain ⟨e, he, -⟩ := h.entry
  rw [List.cons_append, Directory.at?_cons] at he
  obtain ⟨first, hfirst, hrest⟩ := Option.bind_eq_some_iff.1 he
  cases first with
  | directory inner refusal => exact ⟨inner, refusal, hfirst⟩
  | file content => cases above <;> cases hrest
  | link target => cases above <;> cases hrest

/-- **What is found below a directory of named entries** is what stands there. -/
theorem mem_routeFilesIn_iff {entry : Entry} (h : entry.Built names links) :
    ∀ {entries : Directory} {refusal : Option String}, entry = .directory entries refusal →
      ∀ {place : Place} {text : String}, text ∈ routeFilesIn t marker ignored place entries ↔
        ∃ above name, Stands t place entries marker ignored above name ∧
          text = (place ++ above ++ [name]).text := by
  induction h with
  | file content => intro entries refusal he; cases he
  | link hlink => intro entries refusal he; cases he
  | @directory entries refusal hnodup hnames hbuilt ih =>
    intro entries' refusal' he place text
    cases he
    have hlookup : ∀ {n e}, entries.lookup n = some e ↔ (n, e) ∈ entries :=
      Directory.lookup_eq_some_iff hnodup
    rw [routeFilesIn_eq, List.mem_flatMap]
    constructor
    · rintro ⟨⟨n, e⟩, hmem, hfound⟩
      by_cases hdirectory : ∃ inner r, e = .directory inner r
      · obtain ⟨inner, r, rfl⟩ := hdirectory
        rw [routeFilesAt] at hfound
        split at hfound
        · cases hfound
        · rename_i hseen
          obtain ⟨above, name, hstands, rfl⟩ := (ih _ hmem rfl).1 hfound
          exact ⟨n :: above, name, (stands_cons (hlookup.2 hmem)).2 ⟨by simpa using hseen, hstands⟩,
            by simp⟩
      · have hne : ∀ inner r, e ≠ .directory inner r := fun inner r he => hdirectory ⟨inner, r, he⟩
        obtain ⟨htarget, hmarked, rfl⟩ := (mem_routeFilesAt hne).1 hfound
        exact ⟨[], n, stands_nil.2 ⟨e, hlookup.2 hmem, htarget, hmarked⟩, by simp⟩
    · rintro ⟨above, name, hstands, rfl⟩
      cases above with
      | nil =>
        obtain ⟨e, he, htarget, hmarked⟩ := stands_nil.1 hstands
        exact ⟨(name, e), hlookup.1 he,
          (mem_routeFilesAt htarget.not_directory).2 ⟨htarget, hmarked, by simp⟩⟩
      | cons n above =>
        obtain ⟨inner, r, hn⟩ := hstands.lookup
        obtain ⟨hseen, hinner⟩ := (stands_cons hn).1 hstands
        refine ⟨(n, .directory inner r), hlookup.1 hn, ?_⟩
        rw [routeFilesAt, if_neg (by simpa using hseen)]
        exact (ih _ (hlookup.1 hn) rfl).2 ⟨above, name, hinner, by simp⟩

end

/-- **The route files of a plain directory.**  They are found by their paths, and nothing else is. -/
theorem mem_routeFilesIn {entries : Directory} {refusal : Option String}
    (h : Entry.Plain (.directory entries refusal)) (place : Place) (text : String) :
    text ∈ routeFilesIn t marker ignored place entries ↔
      ∃ above name, IsRouteFile entries marker ignored above name ∧
        text = (place ++ above ++ [name]).text := by
  rw [mem_routeFilesIn_iff (Entry.Plain.iff_built.1 h) rfl]
  refine exists_congr fun above => exists_congr fun name => and_congr_left' ?_
  constructor
  · rintro ⟨⟨e, he, htarget⟩, hmarked, hseen⟩
    cases e with
    | file content => exact ⟨⟨content, he⟩, hmarked, hseen⟩
    | link target => cases (h.at? ((Entry.at?_directory (by simp) entries refusal).trans he)).1
    | directory inner r => cases htarget
  · rintro ⟨⟨content, he⟩, hmarked, hseen⟩
    exact ⟨⟨_, he, trivial⟩, hmarked, hseen⟩

/-! ## Each once -/

section
variable {links : String → Prop} {place : Place} {n n' : String} {e e' : Entry}

/-- What is found at a place has its text, with more names behind it. -/
theorem text_of_mem_routeFilesAt (hn : IsEntryName n) (h : e.Built IsEntryName links) {text : String}
    (hfound : text ∈ routeFilesAt t marker ignored (place ++ [n]) n e) :
    ∃ rest, (∀ name ∈ rest, IsPart name) ∧ text = (place ++ n :: rest).text := by
  have hbuilt : Entry.Built IsEntryName links (.directory [(n, e)]) :=
    .directory (by simp) (by simpa using hn) (by simpa using h)
  have hmem : text ∈ routeFilesIn t marker ignored place [(n, e)] := by
    rw [routeFilesIn_eq]
    simpa using hfound
  obtain ⟨above, name, ⟨⟨found, hat, -⟩, -, -⟩, rfl⟩ := (mem_routeFilesIn_iff hbuilt rfl).1 hmem
  have hparts : ∀ m ∈ above ++ [name], IsEntryName m :=
    (hbuilt.at? ((Entry.at?_directory (by simp) _ none).trans hat)).2
  obtain ⟨m, rest, hm⟩ := List.exists_cons_of_ne_nil (List.concat_ne_nil name above)
  rw [hm] at hat hparts
  rw [Directory.at?_cons] at hat
  obtain ⟨_, hl, -⟩ := Option.bind_eq_some_iff.1 hat
  obtain rfl : m = n := by
    simpa using congrArg Prod.fst (List.mem_singleton.1 (Directory.mem_of_lookup hl))
  exact ⟨rest, fun name hname => (hparts name (List.mem_cons_of_mem _ hname)).toIsPart,
    by rw [List.append_assoc, hm]⟩

/-- What is found in different entries of a directory is different. -/
theorem disjoint_routeFilesAt (hplace : ∀ name ∈ place, IsPart name) (hn : IsEntryName n)
    (hn' : IsEntryName n') (h : e.Built IsEntryName links) (h' : e'.Built IsEntryName links)
    (hne : n ≠ n') :
    (routeFilesAt t marker ignored (place ++ [n]) n e).Disjoint
      (routeFilesAt t marker ignored (place ++ [n']) n' e') := by
  have hparts : ∀ {m : String} {rest : Place}, IsEntryName m → (∀ name ∈ rest, IsPart name) →
      ∀ name ∈ place ++ m :: rest, IsPart name := fun hm hrest =>
    List.forall_mem_append.2 ⟨hplace, List.forall_mem_cons.2 ⟨hm.toIsPart, hrest⟩⟩
  intro text htext htext'
  obtain ⟨rest, hrest, rfl⟩ := text_of_mem_routeFilesAt hn h htext
  obtain ⟨rest', hrest', heq⟩ := text_of_mem_routeFilesAt hn' h' htext'
  have hsame := FilePath.placeText_inj (hparts hn hrest) (hparts hn' hrest') heq
  exact hne (List.cons.inj (List.append_cancel_left hsame)).1

/-- In a directory of named entries everything is found once. -/
theorem nodup_routeFilesIn {entry : Entry} (h : entry.Built IsEntryName links) :
    ∀ {entries : Directory} {refusal : Option String}, entry = .directory entries refusal →
      ∀ {place : Place}, (∀ name ∈ place, IsPart name) →
        (routeFilesIn t marker ignored place entries).Nodup := by
  induction h with
  | file content => intro entries refusal he; cases he
  | link hlink => intro entries refusal he; cases he
  | @directory entries refusal hnodup hnames hbuilt ih =>
    intro entries' refusal' he place hplace
    cases he
    rw [routeFilesIn_eq, List.nodup_flatMap]
    constructor
    · rintro ⟨n, e⟩ hmem
      cases e with
      | file content => rw [routeFilesAt]; split <;> simp
      | link target => rw [routeFilesAt]; split <;> simp
      | directory inner r =>
        rw [routeFilesAt]
        split
        · exact List.nodup_nil
        · exact ih _ hmem rfl (List.forall_mem_append.2
            ⟨hplace, List.forall_mem_singleton.2 (hnames _ hmem).toIsPart⟩)
    · refine (List.pairwise_map.1 hnodup).imp_of_mem fun {a b} ha hb hne => ?_
      exact disjoint_routeFilesAt hplace (hnames _ ha) (hnames _ hb) (hbuilt _ ha) (hbuilt _ hb) hne

end

/-! ## Changes that nothing of this sees -/

/-- Sorting forgets the order. -/
theorem sorted_eq_of_perm {texts texts' : List String} (h : texts.Perm texts') :
    FileTree.sorted texts = FileTree.sorted texts' :=
  FileTree.sorted_eq (FileTree.pairwise_sorted texts') (h.trans (FileTree.perm_sorted texts').symm)

/-- What stands below an entry in a tree. -/
theorem at?_below {place : Place} {e : Entry} (h : t.at? place = some e) (below : Place) :
    t.at? (place ++ below) = e.at? below := by
  show t.root.at? (place ++ below) = _
  rw [Directory.at?_append, show t.root.at? place = some e from h, Option.bind_some]

/-- What stands in a directory in a tree. -/
theorem at?_inside {place : Place} {entries : Directory} {refusal : Option String}
    (h : t.at? place = some (.directory entries refusal)) (above : Place) (name : String) :
    t.at? (place ++ above ++ [name]) = entries.at? (above ++ [name]) := by
  rw [List.append_assoc, at?_below h, Entry.at?_directory (by simp)]

/-- What is found in a tree of named entries stands at its path: no directory, and under a name that
    ends with the marker. -/
theorem exists_of_mem_find (ht : t.Named) {root : FilePath} {files : List String}
    (hf : find t root marker ignored = .ok files) {file : String} (hmem : file ∈ files) :
    ∃ above name e, file = Place.text (above ++ [name]) ∧ t.at? (above ++ [name]) = some e ∧
      (∀ inner refusal, e ≠ .directory inner refusal) ∧ endsWith marker name = true := by
  obtain ⟨place, entries, -, he, rfl⟩ := exists_directory_of_find hf
  obtain ⟨above, name, ⟨⟨e, hat, htarget⟩, hmarked, -⟩, rfl⟩ :=
    (mem_routeFilesIn_iff (ht.entry he).1 rfl).1 ((FileTree.perm_sorted _).mem_iff.1 hmem)
  exact ⟨place ++ above, name, e, rfl, (at?_inside he above name).trans hat, htarget.not_directory,
    hmarked⟩

/-- A change that spares the files whose names end with the marker spares the route files. -/
theorem isRouteFile_spared (hs : FileTree.Spares (fun name => endsWith marker name = true) t t')
    {place : Place} {entries entries' : Directory} {refusal refusal' : Option String}
    (he : t.at? place = some (.directory entries refusal))
    (he' : t'.at? place = some (.directory entries' refusal')) (above : Place) (name : String) :
    IsRouteFile entries marker ignored above name ↔ IsRouteFile entries' marker ignored above name := by
  have hfile : endsWith marker name = true → ∀ content,
      entries.at? (above ++ [name]) = some (.file content) ↔
        entries'.at? (above ++ [name]) = some (.file content) := by
    intro hmarked content
    have h := hs.file (place ++ above) name content hmarked
    rwa [at?_inside he, at?_inside he'] at h
  constructor
  · rintro ⟨⟨content, hat⟩, hmarked, hseen⟩
    exact ⟨⟨content, (hfile hmarked content).1 hat⟩, hmarked, hseen⟩
  · rintro ⟨⟨content, hat⟩, hmarked, hseen⟩
    exact ⟨⟨content, (hfile hmarked content).2 hat⟩, hmarked, hseen⟩

/-- The walk from a directory stops where it stopped before a change that spares its refusals. -/
theorem refusals_spared {names : String → Prop} (hs : FileTree.Spares names t t') {place : Place}
    {e e' : Entry} (he : t.at? place = some e) (he' : t'.at? place = some e') :
    e.refusals ignored place = e'.refusals ignored place := by
  have h := hs.refusals place ignored place
  rwa [Option.bind_some, Option.bind_some, t.at?_root, t'.at?_root, he, he'] at h

/-- **What is found is spared.**  A change that spares the files whose names end with the marker changes
    nothing of what is found in a directory. -/
theorem find_spared (hplain : t.Plain)
    (hs : FileTree.Spares (fun name => endsWith marker name = true) t t') {root : FilePath}
    (hroot : t.isDirectory root = true) :
    find t root marker ignored = find t' root marker ignored := by
  obtain ⟨place, hp, hd⟩ := FileTree.isDirectory_iff.1 hroot
  have hp' := FileTree.placeOf_spared hplain hs hp hd
  obtain ⟨entries, refusal, he⟩ := hd
  obtain ⟨entries', refusal', he'⟩ := hs.directory place ⟨entries, refusal, he⟩
  obtain ⟨hentry, hnames⟩ := hplain.entry he
  obtain ⟨hentry', -⟩ := hs.plain.entry he'
  have hplace : ∀ name ∈ place, IsPart name := fun name hname => (hnames name hname).toIsPart
  have hperm : (routeFilesIn t marker ignored place entries).Perm
      (routeFilesIn t' marker ignored place entries') := by
    refine (List.perm_ext_iff_of_nodup
      (nodup_routeFilesIn (Entry.Plain.iff_built.1 hentry) rfl hplace)
      (nodup_routeFilesIn (Entry.Plain.iff_built.1 hentry') rfl hplace)).2 fun text => ?_
    rw [mem_routeFilesIn hentry, mem_routeFilesIn hentry']
    exact exists_congr fun above => exists_congr fun name =>
      and_congr_left' (isRouteFile_spared hs he he' above name)
  rw [find_eq, find_eq, hp, hp']
  simp only [he, he', refusals_spared hs he he', sorted_eq_of_perm hperm]

/-- What is read from a route file is spared. -/
theorem read_spared (hplain : t.Plain)
    (hs : FileTree.Spares (fun name => endsWith marker name = true) t t') {root : FilePath}
    {files : List String} (hf : find t root marker ignored = .ok files) {file : String}
    (hmem : file ∈ files) : t.read (.ofText file) = t'.read (.ofText file) := by
  obtain ⟨place, entries, -, he, rfl⟩ := exists_directory_of_find hf
  obtain ⟨above, name, ⟨⟨content, hat⟩, hmarked, -⟩, rfl⟩ :=
    (mem_routeFilesIn (hplain.entry he).1 place file).1 ((FileTree.perm_sorted _).mem_iff.1 hmem)
  have hfile : t.at? (place ++ above ++ [name]) = some (.file content) :=
    (at?_inside he above name).trans hat
  rw [FileTree.read_placeText hplain hfile,
    FileTree.read_placeText hs.plain ((hs.file _ name content hmarked).1 hfile)]

end RouteAtlas.Discovery
