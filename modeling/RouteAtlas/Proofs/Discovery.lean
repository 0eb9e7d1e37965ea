/-
  RouteAtlas: the route files that are found.

  * `Discovery.find_cases`: a project has no root, or the walk through it stops at a directory that
    refuses to be read (`StopsAt`), or its route files are found;
  * they are found sorted (`find_sorted`).
-/
import RouteAtlas.Discovery

namespace RouteAtlas

/-- Sorted texts are in order. -/
theorem FileTree.pairwise_sorted (texts : List String) : (sorted texts).Pairwise (· ≤ ·) := by
  refine (List.pairwise_mergeSort (fun a b c hab hbc => ?_) (fun a b => ?_) texts).imp fun h => ?_
  · exact decide_eq_true (String.le_trans (of_decide_eq_true hab) (of_decide_eq_true hbc))
  · simpa using String.le_total a b
  · exact of_decide_eq_true h

theorem FileTree.perm_sorted (texts : List String) : (sorted texts).Perm texts :=
  List.mergeSort_perm _ _

/-- Texts are sorted into the one order of them that is sorted. -/
theorem FileTree.sorted_eq {texts inOrder : List String} (h : inOrder.Pairwise (· ≤ ·))
    (hperm : texts.Perm inOrder) : sorted texts = inOrder :=
  ((perm_sorted texts).trans hperm).eq_of_pairwise (fun _ _ _ _ => String.le_antisymm)
    (pairwise_sorted texts) h

namespace Discovery

variable {t : FileTree} {root : FilePath} {marker : String} {ignored : List String}

/-- The walk through a project stops at a place, where the first directory stands on its way that refuses
    to be read. -/
def StopsAt (t : FileTree) (root : FilePath) (ignored : List String) (place : Place) (reason : String) :
    Prop :=
  ∃ start entries refusal rest, t.placeOf root = .ok start ∧
    t.at? start = some (.directory entries refusal) ∧
    (Entry.directory entries refusal).refusals ignored start = (place, reason) :: rest

theorem find_eq : find t root marker ignored =
    match t.placeOf root with
    | .error _ => .error (.noRoot (.missing root.text))
    | .ok place =>
      match t.at? place with
      | some (.directory entries refusal) =>
        match (Entry.directory entries refusal).refusals ignored place with
        | (directory, reason) :: _ => .error (.noRoot (.refused directory.text reason))
        | [] => .ok (FileTree.sorted (routeFilesIn t marker ignored place entries))
      | _ => .error (.noRoot (.missing root.text)) := rfl

/-- Without a directory at its root a project has no route files, and the error names the root. -/
theorem find_eq_error (h : t.isDirectory root = false) :
    find t root marker ignored = .error (.noRoot (.missing root.text)) := by
  unfold FileTree.isDirectory at h
  unfold find
  split
  · rfl
  · rename_i place hp
    simp only [hp] at h
    split
    · rename_i entries refusal he; simp [he] at h
    · rfl

/-- Where the walk stops, the error names the directory, and gives its reason. -/
theorem StopsAt.find_eq {place : Place} {reason : String} (h : StopsAt t root ignored place reason) :
    find t root marker ignored = .error (.noRoot (.refused place.text reason)) := by
  obtain ⟨start, entries, refusal, rest, hp, he, hstops⟩ := h
  rw [Discovery.find_eq, hp]
  simp only [he, hstops]

theorem StopsAt.isDirectory {place : Place} {reason : String} (h : StopsAt t root ignored place reason) :
    t.isDirectory root = true := by
  obtain ⟨start, entries, refusal, rest, hp, he, -⟩ := h
  unfold FileTree.isDirectory
  rw [hp]
  simp only [he]

/-- A project in which no directory on the way refuses to be read has its route files found. -/
theorem find_of_open {place : Place} {entries : Directory} {refusal : Option String}
    (hp : t.placeOf root = .ok place) (he : t.at? place = some (.directory entries refusal))
    (hopen : (Entry.directory entries refusal).refusals ignored place = []) :
    find t root marker ignored = .ok (FileTree.sorted (routeFilesIn t marker ignored place entries)) := by
  rw [find_eq, hp]
  simp only [he, hopen]

/-- What is looked for has no root, or the walk stops, or it comes to all route files there are. -/
theorem find_cases (t : FileTree) (root : FilePath) (marker : String) (ignored : List String) :
    t.isDirectory root = false ∨ (∃ place reason, StopsAt t root ignored place reason) ∨
      ∃ place entries, t.placeOf root = .ok place ∧ t.at? place = some (.directory entries) ∧
        (Entry.directory entries).refusals ignored place = [] ∧
        find t root marker ignored =
          .ok (FileTree.sorted (routeFilesIn t marker ignored place entries)) := by
  cases hd : t.isDirectory root with
  | false => exact Or.inl rfl
  | true =>
    refine Or.inr ?_
    unfold FileTree.isDirectory at hd
    split at hd
    · rename_i place hp
      split at hd
      · rename_i entries refusal he
        cases hr : (Entry.directory entries refusal).refusals ignored place with
        | cons first rest => exact Or.inl ⟨first.1, first.2, place, entries, refusal, rest, hp, he, hr⟩
        | nil =>
          -- The root does not refuse itself.
          obtain rfl : refusal = none := by
            rw [Entry.refusals] at hr
            simpa using (List.append_eq_nil_iff.1 hr).1
          exact Or.inr ⟨place, entries, hp, he, hr, find_of_open hp he hr⟩
      · cases hd
    · cases hd

theorem find_error_iff {e : ScanError} : find t root marker ignored = .error e ↔
    (t.isDirectory root = false ∧ e = .noRoot (.missing root.text)) ∨
      ∃ place reason, StopsAt t root ignored place reason ∧
        e = .noRoot (.refused place.text reason) := by
  constructor
  · intro he
    rcases find_cases t root marker ignored with hd | ⟨place, reason, hstops⟩ | ⟨_, _, -, -, -, hf⟩
    · rw [find_eq_error hd] at he
      exact Or.inl ⟨hd, (Except.error.inj he).symm⟩
    · rw [hstops.find_eq] at he
      exact Or.inr ⟨place, reason, hstops, (Except.error.inj he).symm⟩
    · rw [hf] at he; cases he
  · rintro (⟨hd, rfl⟩ | ⟨place, reason, hstops, rfl⟩)
    · exact find_eq_error hd
    · exact hstops.find_eq

/-- Route files are found exactly in a directory through which the walk does not stop. -/
theorem find_isOk_iff : (∃ files, find t root marker ignored = .ok files) ↔
    t.isDirectory root = true ∧ ∀ place reason, ¬ StopsAt t root ignored place reason := by
  constructor
  · rintro ⟨files, hf⟩
    refine ⟨?_, fun place reason hstops => ?_⟩
    · cases hd : t.isDirectory root with
      | true => rfl
      | false => rw [find_eq_error hd] at hf; cases hf
    · rw [hstops.find_eq] at hf; cases hf
  · rintro ⟨hd, hstops⟩
    rcases find_cases t root marker ignored with hno | ⟨place, reason, h⟩ | ⟨_, _, -, -, -, hf⟩
    · rw [hno] at hd; cases hd
    · exact absurd h (hstops place reason)
    · exact ⟨_, hf⟩

/-- What is found are the route files in the directory that the root leads to. -/
theorem exists_directory_of_find {files : List String} (h : find t root marker ignored = .ok files) :
    ∃ place entries, t.placeOf root = .ok place ∧ t.at? place = some (.directory entries) ∧
      files = FileTree.sorted (routeFilesIn t marker ignored place entries) := by
  rcases find_cases t root marker ignored with hd | ⟨_, _, hstops⟩ | ⟨place, entries, hp, he, -, hf⟩
  · rw [find_eq_error hd] at h; cases h
  · rw [hstops.find_eq] at h; cases h
  · exact ⟨place, entries, hp, he, Except.ok.inj (h.symm.trans hf)⟩

/-- Route files are found in the order of their paths. -/
theorem find_sorted {files : List String} (h : find t root marker ignored = .ok files) :
    files.Pairwise (· ≤ ·) := by
  obtain ⟨place, entries, -, -, rfl⟩ := exists_directory_of_find h
  exact FileTree.pairwise_sorted _

end Discovery

end RouteAtlas
