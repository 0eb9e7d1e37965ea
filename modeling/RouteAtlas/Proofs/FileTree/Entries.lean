/-
  RouteAtlas: what entries hold.

  * `Directory.at?_append`: what stands at a place is found in what stands at a place above it;
  * `Directory.lookup_set` and `Directory.lookup_drop` say what a name stands for after a change;
  * `Entry.Built names links e`: the names of every directory in `e` are different and of a kind, and the
    targets of its links are of a kind.  It stays so when entries are put and taken out.
-/
import Mathlib.Data.List.Nodup
import RouteAtlas.FileTree.Basic

namespace RouteAtlas

/-! ## Places -/

/-- What stands at a place below an entry. -/
def Entry.at? : Entry → Place → Option Entry
  | entry, [] => some entry
  | .directory entries _, name :: rest => Directory.at? entries (name :: rest)
  | _, _ :: _ => none

@[simp] theorem Entry.at?_nil (e : Entry) : e.at? [] = some e := by
  cases e <;> rfl

/-- Below a directory stands what stands below its entries. -/
theorem Entry.at?_directory {place : Place} (hne : place ≠ []) (entries : Directory)
    (refusal : Option String) :
    (Entry.directory entries refusal).at? place = Directory.at? entries place := by
  obtain ⟨name, rest, rfl⟩ := List.exists_cons_of_ne_nil hne
  rfl

namespace Directory

variable {entries : Directory} {place : Place} {e : Entry}

@[simp] theorem at?_nil (entries : Directory) : entries.at? [] = some (.directory entries) := rfl

theorem at?_cons (entries : Directory) (name : String) (rest : Place) :
    entries.at? (name :: rest) = (entries.lookup name).bind fun e => e.at? rest := by
  cases rest with
  | nil =>
    rw [at?]
    cases entries.lookup name with
    | none => rfl
    | some e => exact (Entry.at?_nil e).symm
  | cons next rest =>
    rw [at?]
    · cases entries.lookup name with
      | none => rfl
      | some e => cases e <;> rfl
    · simp

/-- What stands at a place is found in what stands at a place above it. -/
theorem at?_append : ∀ (entries : Directory) (above place : Place),
    entries.at? (above ++ place) = (entries.at? above).bind fun e => e.at? place
  | entries, [], place => by cases place <;> rfl
  | entries, name :: above, place => by
    rw [List.cons_append, at?_cons, at?_cons, Option.bind_assoc]
    refine Option.bind_congr fun e _ => ?_
    cases above with
    | nil => rw [List.nil_append, Entry.at?_nil, Option.bind_some]
    | cons next above =>
      cases e with
      | directory inner refusal => exact at?_append inner (next :: above) place
      | file content => rfl
      | link target => rfl

/-- Above an entry stands a directory. -/
theorem directory_above {above : Place} (hne : place ≠ [])
    (h : entries.at? (above ++ place) = some e) :
    ∃ inner refusal, entries.at? above = some (.directory inner refusal) := by
  rw [at?_append] at h
  obtain ⟨e', habove, h⟩ := Option.bind_eq_some_iff.1 h
  obtain ⟨name, rest, rfl⟩ := List.exists_cons_of_ne_nil hne
  cases e' with
  | directory inner refusal => exact ⟨inner, refusal, habove⟩
  | file content => cases h
  | link target => cases h

end Directory

/-! ## Names of a directory -/

namespace Directory

variable {entries : Directory} {name : String} {entry : Entry}

theorem mem_of_lookup (h : entries.lookup name = some entry) : (name, entry) ∈ entries := by
  obtain ⟨before, after, rfl, -⟩ := List.lookup_eq_some_iff.1 h
  simp

/-- In a directory with different names the entry under a name is the one that it has with the name. -/
theorem lookup_eq_some_iff (h : (entries.map Prod.fst).Nodup) :
    entries.lookup name = some entry ↔ (name, entry) ∈ entries := by
  refine ⟨mem_of_lookup, fun hmem => ?_⟩
  obtain ⟨before, after, rfl⟩ := List.append_of_mem hmem
  rw [List.lookup_eq_some_iff]
  refine ⟨before, after, rfl, fun p hp => ?_⟩
  rw [List.map_append, List.nodup_append] at h
  exact bne_iff_ne.2 (h.2.2 p.1 (List.mem_map_of_mem hp) name (by simp)).symm

theorem lookup_cons_if (n m : String) (e : Entry) (rest : Directory) :
    List.lookup n ((m, e) :: rest) = if n = m then some e else rest.lookup n := by
  rw [List.lookup_cons]
  by_cases h : n = m
  · simp [h]
  · rw [beq_eq_false_iff_ne.2 h, if_neg h]

theorem lookup_set (entries : Directory) (name : String) (entry : Entry) (n : String) :
    (entries.set name entry).lookup n = if n = name then some entry else entries.lookup n := by
  induction entries with
  | nil => rw [set, lookup_cons_if]
  | cons first rest ih =>
    obtain ⟨m, e⟩ := first
    rw [set]
    by_cases hm : m = name
    · rw [if_pos (by simpa using hm), lookup_cons_if, lookup_cons_if, hm]
      split <;> rfl
    · rw [if_neg (by simpa using hm), lookup_cons_if, lookup_cons_if, ih]
      by_cases hn : n = m
      · rw [if_pos hn, if_pos hn, if_neg (hn ▸ hm)]
      · rw [if_neg hn, if_neg hn]

theorem lookup_drop (entries : Directory) (name n : String) :
    (entries.drop name).lookup n = if n = name then none else entries.lookup n := by
  induction entries with
  | nil => simp [drop]
  | cons first rest ih =>
    obtain ⟨m, e⟩ := first
    unfold drop at ih ⊢
    by_cases hm : m = name
    · rw [List.filter_cons_of_neg (by simpa using hm), ih, lookup_cons_if, hm]
      split <;> rfl
    · rw [List.filter_cons_of_pos (by simpa using hm), lookup_cons_if, lookup_cons_if, ih]
      by_cases hn : n = m
      · rw [if_pos hn, if_pos hn, if_neg (hn ▸ hm)]
      · rw [if_neg hn, if_neg hn]

theorem mem_set {n : String} {e : Entry} (h : (n, e) ∈ entries.set name entry) :
    (n, e) = (name, entry) ∨ (n, e) ∈ entries := by
  induction entries with
  | nil => exact Or.inl (List.mem_singleton.1 h)
  | cons first rest ih =>
    obtain ⟨m, e'⟩ := first
    rw [set] at h
    split at h
    · rename_i hm
      rcases List.mem_cons.1 h with h | h
      · exact Or.inl (by rw [h, beq_iff_eq.1 hm])
      · exact Or.inr (List.mem_cons_of_mem _ h)
    · rcases List.mem_cons.1 h with h | h
      · exact Or.inr (h ▸ List.mem_cons_self ..)
      · exact (ih h).imp_right (List.mem_cons_of_mem _)

theorem nodup_set (h : (entries.map Prod.fst).Nodup) :
    ((entries.set name entry).map Prod.fst).Nodup := by
  induction entries with
  | nil => simp [set]
  | cons first rest ih =>
    obtain ⟨m, e⟩ := first
    rw [List.map_cons, List.nodup_cons] at h
    rw [set]
    split
    · exact List.nodup_cons.2 h
    · rename_i hm
      refine List.nodup_cons.2 ⟨fun hmem => ?_, ih h.2⟩
      obtain ⟨⟨n, e'⟩, hset, rfl⟩ := List.mem_map.1 hmem
      rcases mem_set hset with heq | hmem
      · exact hm (by simpa using congrArg Prod.fst heq)
      · exact h.1 (List.mem_map.2 ⟨_, hmem, rfl⟩)

end Directory

/-! ## Entries that are built of certain names -/

/-- Files, links to certain targets, and directories of them under different names of a kind. -/
inductive Entry.Built (names links : String → Prop) : Entry → Prop
  | file (content : ByteArray) : Built names links (.file content)
  | link {target : String} : links target → Built names links (.link target)
  | directory {entries : Directory} {refusal : Option String} : (entries.map Prod.fst).Nodup →
      (∀ e ∈ entries, names e.1) → (∀ e ∈ entries, Built names links e.2) →
      Built names links (.directory entries refusal)

namespace Entry.Built

variable {names links : String → Prop} {entries : Directory} {refusal refusal' : Option String}
  {name : String} {entry : Entry}

theorem nodup (h : Built names links (.directory entries refusal)) : (entries.map Prod.fst).Nodup := by
  cases h; assumption

theorem name_of_mem (h : Built names links (.directory entries refusal)) (hmem : (name, entry) ∈ entries) :
    names name := by
  cases h with
  | directory _ hnames _ => exact hnames _ hmem

theorem of_mem (h : Built names links (.directory entries refusal)) (hmem : (name, entry) ∈ entries) :
    Built names links entry := by
  cases h with
  | directory _ _ hbuilt => exact hbuilt _ hmem

/-- One more entry under a new name. -/
theorem cons (hnew : name ∉ entries.map Prod.fst) (hname : names name) (he : Built names links entry)
    (h : Built names links (.directory entries refusal)) :
    Built names links (.directory ((name, entry) :: entries) refusal) := by
  cases h with
  | directory hnodup hnames hbuilt =>
    exact .directory (List.nodup_cons.2 ⟨hnew, hnodup⟩) (List.forall_mem_cons.2 ⟨hname, hnames⟩)
      (List.forall_mem_cons.2 ⟨he, hbuilt⟩)

theorem single (hname : names name) (h : Built names links entry) :
    Built names links (.directory [(name, entry)] refusal) :=
  cons List.not_mem_nil hname h (.directory List.nodup_nil (by simp) (by simp))

/-- What stands in an entry is built as the entry is, under names of the kind. -/
theorem at? (h : Built names links entry) : ∀ {place : Place} {e : Entry}, entry.at? place = some e →
    Built names links e ∧ ∀ name ∈ place, names name := by
  induction h with
  | file content =>
    intro place e he
    cases place with
    | nil => cases he; exact ⟨.file content, by simp⟩
    | cons name rest => cases he
  | link hlink =>
    intro place e he
    cases place with
    | nil => cases he; exact ⟨.link hlink, by simp⟩
    | cons name rest => cases he
  | @directory entries refusal hnodup hnames hbuilt ih =>
    intro place e he
    cases place with
    | nil => cases he; exact ⟨.directory hnodup hnames hbuilt, by simp⟩
    | cons name rest =>
      rw [Entry.at?_directory (List.cons_ne_nil name rest), Directory.at?_cons] at he
      obtain ⟨inner, hlookup, he⟩ := Option.bind_eq_some_iff.1 he
      have hmem := Directory.mem_of_lookup hlookup
      obtain ⟨hinner, hrest⟩ := ih _ hmem he
      exact ⟨hinner, List.forall_mem_cons.2 ⟨hnames _ hmem, hrest⟩⟩

theorem set (h : Built names links (.directory entries refusal)) (hname : names name)
    (he : Built names links entry) :
    Built names links (.directory (entries.set name entry) refusal') := by
  refine .directory (Directory.nodup_set h.nodup) ?_ ?_
  · rintro ⟨n, e⟩ hmem
    rcases Directory.mem_set hmem with heq | hmem
    · cases heq; exact hname
    · exact h.name_of_mem hmem
  · rintro ⟨n, e⟩ hmem
    rcases Directory.mem_set hmem with heq | hmem
    · cases heq; exact he
    · exact h.of_mem hmem

theorem drop (h : Built names links (.directory entries refusal)) (name : String) :
    Built names links (.directory (entries.drop name) refusal') := by
  have hsub : ∀ e ∈ entries.drop name, e ∈ entries := fun e he => (List.mem_filter.1 he).1
  refine .directory (h.nodup.sublist (List.filter_sublist.map _)) ?_ ?_
  · rintro ⟨n, e⟩ hmem
    exact h.name_of_mem (hsub _ hmem)
  · rintro ⟨n, e⟩ hmem
    exact h.of_mem (hsub _ hmem)

/-- An entry can be put at any place with names of the kind. -/
theorem putAt (he : Built names links entry) : ∀ {entries : Directory} {refusal : Option String}
    {place : Place}, Built names links (.directory entries refusal) → (∀ name ∈ place, names name) →
      Built names links (.directory (entries.putAt entry place) refusal)
  | _, _, [], h, _ => h
  | _, _, [name], h, hnames => h.set (hnames name (List.mem_cons_self ..)) he
  | entries, _, name :: next :: rest, h, hnames => by
    rw [Directory.putAt]
    split
    · rename_i inner refusal hlookup
      have hinner := h.of_mem (Directory.mem_of_lookup hlookup)
      exact h.set (hnames name (List.mem_cons_self ..))
        (putAt he hinner fun n hn => hnames n (List.mem_cons_of_mem _ hn))
    · exact h
    · simp

/-- What is left when an entry is taken out is built as before. -/
theorem dropAt : ∀ {entries : Directory} {refusal : Option String} {place : Place},
    Built names links (.directory entries refusal) →
      Built names links (.directory (entries.dropAt place) refusal)
  | _, _, [], _ => by
    rw [Directory.dropAt]
    exact .directory (by simp) (by simp) (by simp)
  | _, _, [name], h => h.drop name
  | entries, _, name :: next :: rest, h => by
    rw [Directory.dropAt]
    split
    · rename_i inner refusal hlookup
      have hmem := Directory.mem_of_lookup hlookup
      exact h.set (h.name_of_mem hmem) (dropAt (h.of_mem hmem))
    · exact h
    · simp

end Entry.Built

end RouteAtlas
