/-
  RouteAtlas: scans that analyze one file after the other.

  * `entryOf t settings k file` is what a file adds to the map when it is analyzed on its own, with the
    journal `k` in front of it;
  * `routeMap_sequential` says that the map of a scan is made of these entries, in the order of the
    files; that a scan fails with the fault of the first file that has one, or at the first directory
    that refuses to be read, or for want of a root; and that the entry of a file depends on what is read
    from this file alone.
-/
import Mathlib
import RouteAtlas.Proofs.Discovery
import RouteAtlas.Proofs.Route.Analysis
import RouteAtlas.Scan

namespace RouteAtlas.Scan

open RouteAtlas.Analysis RouteAtlas.Recording

variable {t : FileTree} {settings : Settings} {root : FilePath}

/-! ## Several files -/

section
variable {β : Type} (f : String → Except Failure β)

/-- Files with their results, where each of them has one. -/
theorem mapM_pair_ok_iff (files : List String) (entries : List (String × β)) :
    files.mapM (fun file => (f file).map (Prod.mk file)) = .ok entries ↔
      (∀ file ∈ files, ∃ b, f file = .ok b) ∧
        entries = files.filterMap fun file => (f file).toOption.map (Prod.mk file) := by
  induction files generalizing entries with
  | nil => simp [pure, Except.pure, eq_comm]
  | cons file files ih =>
    rw [List.mapM_cons]
    cases hf : f file with
    | error e => simp [hf, Except.map, bind, Except.bind]
    | ok b =>
      cases hr : files.mapM (fun file => (f file).map (Prod.mk file)) with
      | error e =>
        have hne : ¬ ∀ file ∈ files, ∃ b, f file = .ok b := fun h => by
          have := (ih _).2 ⟨h, rfl⟩; rw [hr] at this; cases this
        simp [hf, Except.map, bind, Except.bind, hne]
      | ok rest =>
        obtain ⟨hall, hrest⟩ := (ih rest).1 hr
        simp only [Except.map, bind, Except.bind, pure, Except.pure, Except.ok.injEq,
          List.forall_mem_cons, hf, exists_eq', true_and, List.filterMap_cons, Except.toOption,
          Option.map_some]
        rw [hrest]
        exact ⟨fun h => ⟨hall, h.symm⟩, fun h => h.2.symm⟩

/-- The first file without a result decides the error. -/
theorem mapM_pair_error_iff (files : List String) (e : Failure) :
    files.mapM (fun file => (f file).map (Prod.mk file)) = .error e ↔
      ∃ before file after, files = before ++ file :: after ∧
        (∀ g ∈ before, ∃ b, f g = .ok b) ∧ f file = .error e := by
  induction files with
  | nil => simp [pure, Except.pure]
  | cons file files ih =>
    rw [List.mapM_cons]
    cases hf : f file with
    | error e' =>
      simp only [Except.map, bind, Except.bind, Except.error.injEq]
      constructor
      · rintro rfl; exact ⟨[], file, files, rfl, by simp, hf⟩
      · rintro ⟨before, g, after, heq, hall, hg⟩
        cases before with
        | nil => cases heq; rw [hf] at hg; exact Except.error.inj hg
        | cons x before =>
          cases heq
          obtain ⟨b, hb⟩ := hall _ (List.mem_cons_self ..)
          rw [hf] at hb; cases hb
    | ok b =>
      have hstep : ((do
          let x ← Except.map (Prod.mk file) (Except.ok b : Except Failure β)
          let xs ← files.mapM (fun file => (f file).map (Prod.mk file))
          pure (x :: xs)) = .error e) ↔
          files.mapM (fun file => (f file).map (Prod.mk file)) = .error e := by
        cases files.mapM (fun file => (f file).map (Prod.mk file)) <;>
          simp [Except.map, bind, Except.bind, pure, Except.pure]
      rw [hstep, ih]
      constructor
      · rintro ⟨before, g, after, rfl, hall, hg⟩
        exact ⟨file :: before, g, after, rfl, by simpa [hf] using hall, hg⟩
      · rintro ⟨before, g, after, heq, hall, hg⟩
        cases before with
        | nil => cases heq; rw [hf] at hg; cases hg
        | cons x before =>
          cases heq
          exact ⟨before, g, after, rfl, fun y hy => hall y (List.mem_cons_of_mem _ hy), hg⟩

end

/-! ## One scan -/

/-- The files of a project are analyzed one after the other: there is one worker, or at most one
    file. -/
def Sequential (t : FileTree) (settings : Settings) (root : FilePath) : Prop :=
  ∀ files, Discovery.find t root settings.routeFileMarker settings.ignoredDirs = .ok files →
    1 < files.length → settings.scanWorkers ≤ 1

/-- What a file adds to the map when it is analyzed on its own: nothing if it has no routes. -/
def entryOf (t : FileTree) (settings : Settings) (k : Journal) (file : String) :
    Option (String × MethodTable) :=
  match result (analyze t settings file) k with
  | .ok table => if table.isEmpty then none else some (file, table)
  | .error _ => none

/-- A file of a project is found. -/
def IsFound (t : FileTree) (settings : Settings) (root : FilePath) (file : String) : Prop :=
  ∃ files, Discovery.find t root settings.routeFileMarker settings.ignoredDirs = .ok files ∧
    file ∈ files

theorem steady_pair (file : String) :
    Steady (do return (file, ← analyze t settings file) : Recording (String × MethodTable)) :=
  (steady_analyze settings _ file).bind fun _ => steady_pure _

theorem steady_oneByOne (files : List String) : Steady (oneByOne t settings files) :=
  (steady_mapM (fun file => steady_pair file) files).bind fun _ => steady_pure _

/-- The tables of files are made each on its own. -/
theorem outcome_tables (files : List String) : outcome (tables t settings files) =
    files.mapM fun file => (outcome (analyze t settings file)).map (Prod.mk file) := by
  have hpair : ∀ file : String,
      outcome (do return (file, ← analyze t settings file) : Recording (String × MethodTable)) =
        (outcome (analyze t settings file)).map (Prod.mk file) := by
    intro file
    rw [outcome_bind _ fun _ => steady_pure _]
    cases outcome (analyze t settings file) <;> rfl
  unfold tables
  rw [outcome_mapM fun file => steady_pair file]
  simp only [hpair]

/-- The map of files is what is left of their tables, each made on its own. -/
theorem outcome_oneByOne (files : List String) : outcome (oneByOne t settings files) =
    (files.mapM fun file => (outcome (analyze t settings file)).map (Prod.mk file)).map
      withRoutes := by
  unfold oneByOne
  rw [outcome_bind _ fun _ => steady_pure _, outcome_tables]
  cases files.mapM fun file => (outcome (analyze t settings file)).map (Prod.mk file) <;> rfl

/-- A sequential scan finds the files and analyzes one after the other. -/
theorem result_routeMap (hs : Sequential t settings root) (j : Journal) :
    result (routeMap t settings root) j =
      match Discovery.find t root settings.routeFileMarker settings.ignoredDirs with
      | .error e => .error (.scan e)
      | .ok files => outcome (oneByOne t settings files) := by
  unfold routeMap routeFiles
  cases hf : Discovery.find t root settings.routeFileMarker settings.ignoredDirs with
  | error e => rfl
  | ok files =>
    have hseq : ¬ (settings.scanWorkers > 1 ∧ files.length > 1) :=
      fun ⟨h1, h2⟩ => absurd (hs files hf h2) (by omega)
    rw [result_bind]
    show result (counted _ >>= _) _ = _
    rw [result_bind, if_neg (by simpa using hseq)]
    show result (oneByOne t settings files >>= _) _ = _
    rw [result_bind, (steady_oneByOne files).result_eq]
    show _ = outcome (oneByOne t settings files)
    cases outcome (oneByOne t settings files) <;> rfl

/-- The entries with routes, among those of the files that have a table. -/
theorem withRoutes_filterMap (k : Journal) (files : List String) :
    withRoutes (files.filterMap fun file =>
        (outcome (analyze t settings file)).toOption.map (Prod.mk file)) =
      files.filterMap (entryOf t settings k) := by
  unfold withRoutes
  rw [List.filter_filterMap]
  refine congrArg (fun g => files.filterMap g) (funext fun file => ?_)
  simp only [entryOf, (steady_analyze settings _ file).result_eq k]
  cases outcome (analyze t settings file) with
  | error e => rfl
  | ok table => cases table <;> rfl

/-- A scan gives a map exactly if it finds files and has a table of each. -/
theorem routeMap_ok_iff (hs : Sequential t settings root) (j k : Journal) (map : RouteMap) :
    result (routeMap t settings root) j = .ok map ↔
      ∃ files, Discovery.find t root settings.routeFileMarker settings.ignoredDirs = .ok files ∧
        (∀ file ∈ files, ∃ table, result (analyze t settings file) k = .ok table) ∧
        map = files.filterMap (entryOf t settings k) := by
  rw [result_routeMap hs]
  cases hf : Discovery.find t root settings.routeFileMarker settings.ignoredDirs with
  | error e => simp
  | ok files =>
    simp only [outcome_oneByOne, Except.ok.injEq, exists_eq_left',
      (steady_analyze settings _ _).result_eq k, ← withRoutes_filterMap k]
    cases hm : files.mapM fun file => (outcome (analyze t settings file)).map (Prod.mk file) with
    | error e =>
      simp only [Except.map, reduceCtorEq, false_iff]
      rintro ⟨hall, -⟩
      have := (mapM_pair_ok_iff _ files _).2 ⟨hall, rfl⟩
      rw [hm] at this; cases this
    | ok entries =>
      obtain ⟨hall, he⟩ := (mapM_pair_ok_iff _ files entries).1 hm
      simp only [Except.map, Except.ok.injEq]
      exact ⟨fun h => ⟨hall, by rw [← h, he]⟩, fun h => by rw [h.2, he]⟩

/-- A scan fails exactly for want of a root, where the walk through it stops, or with the error of the
    first file that has one. -/
theorem routeMap_error_iff (hs : Sequential t settings root) (j k : Journal) (e : Failure) :
    result (routeMap t settings root) j = .error e ↔
      (t.isDirectory root = false ∧ e = .scan (.noRoot (.missing root.text))) ∨
      (∃ place reason, Discovery.StopsAt t root settings.ignoredDirs place reason ∧
        e = .scan (.noRoot (.refused place.text reason))) ∨
      ∃ before file after,
        Discovery.find t root settings.routeFileMarker settings.ignoredDirs =
          .ok (before ++ file :: after) ∧
        (∀ g ∈ before, ∃ table, result (analyze t settings g) k = .ok table) ∧
        result (analyze t settings file) k = .error e := by
  rw [result_routeMap hs]
  cases hf : Discovery.find t root settings.routeFileMarker settings.ignoredDirs with
  | error e' =>
    rcases Discovery.find_error_iff.1 hf with ⟨hd, rfl⟩ | ⟨place, reason, hstops, rfl⟩
    · have hopen : ∀ place reason, ¬ Discovery.StopsAt t root settings.ignoredDirs place reason :=
        fun place reason hstops => by rw [hstops.isDirectory] at hd; cases hd
      simp [hd, hopen, eq_comm]
    · constructor
      · rintro ⟨⟩
        exact Or.inr (Or.inl ⟨place, reason, hstops, rfl⟩)
      · rintro (⟨hd, -⟩ | ⟨place', reason', hstops', rfl⟩ | ⟨_, _, _, hfound, -⟩)
        · rw [hstops.isDirectory] at hd; cases hd
        · have hfind := hstops'.find_eq.symm.trans hf
          rw [Except.error.inj hfind]
        · cases hfound
  | ok files =>
    obtain ⟨hd, hopen⟩ := Discovery.find_isOk_iff.1 ⟨files, hf⟩
    simp only [hd, Bool.true_eq_false, false_and, hopen, exists_false, false_or, outcome_oneByOne,
      Except.ok.injEq, (steady_analyze settings _ _).result_eq k]
    rw [← mapM_pair_error_iff]
    cases files.mapM fun file => (outcome (analyze t settings file)).map (Prod.mk file) <;>
      simp [Except.map]

/-- A scan fails exactly for want of a root, where the walk through it stops, or if a file that it finds
    has no table. -/
theorem routeMap_fails_iff (hs : Sequential t settings root) (j k : Journal) :
    (∃ e, result (routeMap t settings root) j = .error e) ↔
      t.isDirectory root = false ∨
        (∃ place reason, Discovery.StopsAt t root settings.ignoredDirs place reason) ∨
        ∃ file, IsFound t settings root file ∧
          ∃ e, result (analyze t settings file) k = .error e := by
  constructor
  · rintro ⟨e, he⟩
    rcases (routeMap_error_iff hs j k e).1 he with ⟨hd, -⟩ | ⟨place, reason, hstops, -⟩ |
      ⟨before, file, after, hf, -, hfile⟩
    · exact Or.inl hd
    · exact Or.inr (Or.inl ⟨place, reason, hstops⟩)
    · exact Or.inr (Or.inr ⟨file, ⟨_, hf, by simp⟩, e, hfile⟩)
  · intro h
    cases hr : result (routeMap t settings root) j with
    | error e => exact ⟨e, rfl⟩
    | ok map =>
      obtain ⟨files, hf, hall, -⟩ := (routeMap_ok_iff hs j k map).1 hr
      rcases h with hd | ⟨place, reason, hstops⟩ | ⟨file, ⟨files', hf', hmem⟩, e, he⟩
      · rw [Discovery.find_eq_error hd] at hf; cases hf
      · rw [hstops.find_eq] at hf; cases hf
      · rw [hf] at hf'; cases hf'
        obtain ⟨table, ht⟩ := hall file hmem
        rw [ht] at he; cases he

/-- A scan has an entry exactly if it finds the file and the file has the table, with a route. -/
theorem mem_routeMap_iff (hs : Sequential t settings root) {j : Journal} {map : RouteMap}
    (h : result (routeMap t settings root) j = .ok map) (file : String) (table : MethodTable) :
    (file, table) ∈ map ↔ IsFound t settings root file ∧
      outcome (analyze t settings file) = .ok table ∧ table ≠ [] := by
  obtain ⟨files, hf, -, rfl⟩ := (routeMap_ok_iff hs j {} map).1 h
  have hfound : IsFound t settings root file ↔ file ∈ files := by simp [IsFound, hf]
  rw [hfound, List.mem_filterMap]
  constructor
  · rintro ⟨g, hg, he⟩
    unfold entryOf at he
    split at he
    · rename_i table' ht
      split at he
      · cases he
      · rename_i hne
        cases he
        exact ⟨hg, ht, by simpa using hne⟩
    · cases he
  · rintro ⟨hmem, ht, hne⟩
    refine ⟨file, hmem, ?_⟩
    have ht' : result (analyze t settings file) {} = .ok table := ht
    simp [entryOf, ht', hne]

/-- **A sequential scan analyzes every file on its own.**  It gives a map exactly if it finds files and
    every one of them has a table, and then the map has the tables with routes in the order of the files.
    Otherwise it fails: for want of a root, at the first directory on its way that refuses to be read, or
    with the fault of the first file that has one.  What it says of a file depends on what is read from
    that file. -/
theorem routeMap_sequential (t : FileTree) (settings : Settings) (root : FilePath) (j k : Journal)
    (hm : ∀ word ∈ settings.methods, (Method.ofWord? word).isSome)
    (hs : Sequential t settings root) :
    (∀ map, result (routeMap t settings root) j = .ok map ↔
      ∃ files, Discovery.find t root settings.routeFileMarker settings.ignoredDirs = .ok files ∧
        files.Pairwise (· ≤ ·) ∧
        (∀ file ∈ files, ∃ table, result (analyze t settings file) k = .ok table) ∧
        map = files.filterMap (entryOf t settings k)) ∧
    (∀ e, result (routeMap t settings root) j = .error e ↔
      (t.isDirectory root = false ∧ e = .scan (.noRoot (.missing root.text))) ∨
      (∃ place reason, Discovery.StopsAt t root settings.ignoredDirs place reason ∧
        e = .scan (.noRoot (.refused place.text reason))) ∨
      ∃ before file after,
        Discovery.find t root settings.routeFileMarker settings.ignoredDirs =
          .ok (before ++ file :: after) ∧
        (∀ g ∈ before, ∃ table, result (analyze t settings g) k = .ok table) ∧
        result (analyze t settings file) k = .error e ∧ FileFault t settings file e) ∧
    ((∃ e, result (routeMap t settings root) j = .error e) ↔
      t.isDirectory root = false ∨
        (∃ place reason, Discovery.StopsAt t root settings.ignoredDirs place reason) ∨
        ∃ file, IsFound t settings root file ∧ ∃ e, result (analyze t settings file) k = .error e) ∧
    (∀ (t' : FileTree) (root' : FilePath) (map map' : RouteMap) (file : String),
      Sequential t' settings root' →
      result (routeMap t settings root) j = .ok map →
      result (routeMap t' settings root') k = .ok map' →
      IsFound t settings root file → IsFound t' settings root' file →
      t.read (.ofText file) = t'.read (.ofText file) →
      ∀ table, (file, table) ∈ map ↔ (file, table) ∈ map') := by
  refine ⟨fun map => ?_, fun e => ?_, ?_, ?_⟩
  · rw [routeMap_ok_iff hs j k]
    constructor
    · rintro ⟨files, hf, hall, rfl⟩; exact ⟨files, hf, Discovery.find_sorted hf, hall, rfl⟩
    · rintro ⟨files, hf, -, hall, rfl⟩; exact ⟨files, hf, hall, rfl⟩
  · rw [routeMap_error_iff hs j k]
    simp only [(steady_analyze settings _ _).result_eq k, analyze_error_iff _ _ hm, and_self]
  · exact routeMap_fails_iff hs j k
  · intro t' root' map map' file hs' h h' hfound hfound' hread table
    rw [mem_routeMap_iff hs h, mem_routeMap_iff hs' h', analyze_congr settings _ _ hread]
    simp [hfound, hfound']

/-- A project with two route files that are links to nowhere; the second in order stands first. -/
def danglingProject : FileTree :=
  { root := [("src", .directory [("b+server.ts", .link "gone"), ("a+server.ts", .link "gone")])] }

theorem find_danglingProject (ignored : List String) :
    Discovery.find danglingProject (.ofText "/src") "+server.ts" ignored =
      .ok ["/src/a+server.ts", "/src/b+server.ts"] := by
  have hplace : danglingProject.placeOf (.ofText "/src") = .ok ["src"] := by cbv
  have hfiles : Discovery.routeFilesIn danglingProject "+server.ts" ignored ["src"]
      [("b+server.ts", .link "gone"), ("a+server.ts", .link "gone")] =
      ["/src/b+server.ts", "/src/a+server.ts"] := by cbv
  rw [Discovery.find_of_open hplace rfl (by simp [Entry.refusals, Directory.refusals]), hfiles,
    FileTree.sorted_eq (by decide) (List.Perm.swap _ _ _)]

theorem analyze_danglingProject :
    outcome (analyze danglingProject {} "/src/a+server.ts") =
      .error (.scan (.unreadable "/src/a+server.ts")) := by
  have hread : danglingProject.read (.ofText "/src/a+server.ts") = .error .missing := by cbv
  refine (analyze_error_iff _ _ (by decide) _).2 (.unreadable ?_)
  rintro source ⟨bytes, hr, -⟩
  rw [hread] at hr; cases hr

/-- The scan of the two dangling links fails with the first in order. -/
theorem routeMap_sequential_dangling :
    (∀ word ∈ ({} : Settings).methods, (Method.ofWord? word).isSome) ∧
    Sequential danglingProject {} (.ofText "/src") ∧
    result (routeMap danglingProject {} (.ofText "/src")) {} =
      .error (.scan (.unreadable "/src/a+server.ts")) := by
  have hm : ∀ word ∈ ({} : Settings).methods, (Method.ofWord? word).isSome := by decide
  have hs : Sequential danglingProject {} (.ofText "/src") := fun _ _ _ => Int.le_refl 1
  obtain ⟨-, hfail, -⟩ := routeMap_sequential danglingProject {} (.ofText "/src") {} {} hm hs
  refine ⟨hm, hs, (hfail _).2 (Or.inr (Or.inr ⟨[], _, ["/src/b+server.ts"], find_danglingProject _, ?_,
    analyze_danglingProject, ?_⟩))⟩
  · simp
  · exact (analyze_error_iff _ _ hm _).1 analyze_danglingProject

/-! ## Two files -/

/-- Two directories with a route file each; the second one in order stands first. -/
def pairEntries (a b : Entry) : Directory :=
  [("routes", .directory [("b", .directory [("+server.ts", b)]), ("a", .directory [("+server.ts", a)])])]

/-- A project with these directories. -/
def pairProject (a b : Entry) : FileTree :=
  { root := [("src", .directory (pairEntries a b))] }

/-- The paths of its route files in order. -/
def pairFiles : List String := ["/src/routes/a/+server.ts", "/src/routes/b/+server.ts"]

theorem find_pairProject {a b : Entry}
    (h : Discovery.routeFilesIn (pairProject a b) "+server.ts" ({} : Settings).ignoredDirs ["src"]
      (pairEntries a b) = pairFiles.reverse)
    (hopen : (Entry.directory (pairEntries a b)).refusals ({} : Settings).ignoredDirs ["src"] = []) :
    Discovery.find (pairProject a b) (.ofText "/src") ({} : Settings).routeFileMarker
      ({} : Settings).ignoredDirs = .ok pairFiles := by
  have hplace : (pairProject a b).placeOf (.ofText "/src") = .ok ["src"] := by cbv
  rw [← FileTree.sorted_eq (by decide) (List.reverse_perm pairFiles), ← h]
  exact Discovery.find_of_open hplace rfl hopen

/-- The map of two files that have the same handler. -/
def pairMap : RouteMap :=
  [("/src/routes/a/+server.ts", [(.get, handlerRoute "/a")]),
    ("/src/routes/b/+server.ts", [(.get, handlerRoute "/b")])]

/-- A scan of the two files gives this map, if the handler is read from both. -/
theorem outcome_oneByOne_pair
    (hread : ∀ file ∈ pairFiles, t.read (.ofText file) = .ok handlerSource.toUTF8) :
    outcome (oneByOne t {} pairFiles) = .ok pairMap := by
  have ha : outcome (analyze t {} "/src/routes/a/+server.ts") = .ok [(.get, handlerRoute "/a")] :=
    outcome_analyze_handler (hread _ (by decide)) (by decide +kernel)
  have hb : outcome (analyze t {} "/src/routes/b/+server.ts") = .ok [(.get, handlerRoute "/b")] :=
    outcome_analyze_handler (hread _ (by decide)) (by decide +kernel)
  rw [outcome_oneByOne, pairFiles, List.mapM_cons, List.mapM_cons, List.mapM_nil, ha, hb]
  rfl

/-- A project whose two route files both have the handler. -/
def handlersProject : FileTree :=
  pairProject (.file handlerSource.toUTF8) (.file handlerSource.toUTF8)

theorem find_handlersProject : Discovery.find handlersProject (.ofText "/src")
    ({} : Settings).routeFileMarker ({} : Settings).ignoredDirs = .ok pairFiles :=
  find_pairProject (by cbv) (by cbv)

theorem outcome_oneByOne_handlers : outcome (oneByOne handlersProject {} pairFiles) = .ok pairMap := by
  refine outcome_oneByOne_pair fun file hmem => ?_
  fin_cases hmem <;> cbv

/-- A project with a route file, and a directory that refuses to be read. -/
def lockedProject : FileTree :=
  { root := [("src", .directory
      [("a+server.ts", .file .empty), ("locked", .directory [] (some "Permission denied"))])] }

/-- A project in which the first of two route files is a link to the second one. -/
def sharingProject (content : ByteArray) : FileTree :=
  pairProject (.link "../b/+server.ts") (.file content)

/-- **A scan can fail although its root is a directory and no file has a fault**, because a directory
    refuses to be read.  And what it says of a file that is a link depends on another file, to which the
    link leads. -/
theorem routeMap_otherwise :
    (lockedProject.isDirectory (.ofText "/src") = true ∧
      outcome (analyze lockedProject {} "/src/a+server.ts") = .ok [] ∧
      (∀ file, ¬ IsFound lockedProject {} (.ofText "/src") file) ∧
      Sequential lockedProject {} (.ofText "/src") ∧
      result (routeMap lockedProject {} (.ofText "/src")) {} =
        .error (.scan (.noRoot (.refused "/src/locked" "Permission denied")))) ∧
    (∀ content, (sharingProject content).at? ["src", "routes", "a", "+server.ts"] =
        some (.link "../b/+server.ts") ∧ Sequential (sharingProject content) {} (.ofText "/src")) ∧
      result (routeMap (sharingProject handlerSource.toUTF8) {} (.ofText "/src")) {} = .ok pairMap ∧
      result (routeMap (sharingProject .empty) {} (.ofText "/src")) {} = .ok [] := by
  have hs : ∀ t, Sequential t {} (.ofText "/src") := fun _ _ _ _ => Int.le_refl 1
  have hstops : Discovery.StopsAt lockedProject (.ofText "/src") ({} : Settings).ignoredDirs
      ["src", "locked"] "Permission denied" := ⟨["src"], _, _, [], by cbv, rfl, by cbv⟩
  have hfind : ∀ content, Discovery.find (sharingProject content) (.ofText "/src")
      ({} : Settings).routeFileMarker ({} : Settings).ignoredDirs = .ok pairFiles := fun _ =>
    find_pairProject (by cbv) (by cbv)
  have hread : ∀ content, ∀ file ∈ pairFiles,
      (sharingProject content).read (.ofText file) = .ok content := by
    intro content file hmem
    fin_cases hmem <;> cbv
  refine ⟨⟨hstops.isDirectory, ?_, ?_, hs _, ?_⟩, fun content => ⟨rfl, hs _⟩, ?_, ?_⟩
  · exact outcome_analyze_blank {} _ _ ⟨.empty, by cbv, by cbv⟩
  · rintro file ⟨files, hfound, -⟩
    rw [hstops.find_eq] at hfound
    cases hfound
  · exact (routeMap_error_iff (hs _) {} {} _).2 (Or.inr (Or.inl ⟨_, _, hstops, by decide⟩))
  · rw [result_routeMap (hs _), hfind]
    exact outcome_oneByOne_pair (hread _)
  · rw [result_routeMap (hs _), hfind]
    have hblank : ∀ file ∈ pairFiles, outcome (analyze (sharingProject .empty) {} file) = .ok [] :=
      fun file hmem => outcome_analyze_blank {} _ file ⟨.empty, hread _ file hmem, by cbv⟩
    show outcome (oneByOne _ {} pairFiles) = _
    rw [outcome_oneByOne, pairFiles, List.mapM_cons, List.mapM_cons, List.mapM_nil,
      hblank _ (by decide), hblank _ (by decide)]
    rfl

end RouteAtlas.Scan
