/-
  RouteAtlas: scans with several workers.

  Several workers complete the analyses of files in any order, and what they count comes in any order.

  * `arranged_results`: the tables of the files are put back into the order of the files;
  * `counting_tables`: what is counted is what is counted for each file;
  * `together_oneByOne`: the map, the failures and the counts are those of a scan that analyzes one file
    after the other;
  * `outcome_routeMap`: the outcome of a scan is that of finding files and analyzing them one by one.
-/
import RouteAtlas.Proofs.Metrics
import RouteAtlas.Proofs.Scan.OneByOne

namespace RouteAtlas.Scan

open RouteAtlas.Analysis RouteAtlas.Recording

variable {t : FileTree} {settings : Settings} {files completed : List String}

/-! ## The order of the files -/

section
variable (f : String → Except Failure MethodTable)

/-- A file has its own result among those of several files. -/
theorem lookup_results (files : List String) (file : String) :
    (files.filterMap fun g => (f g).toOption.map (Prod.mk g)).lookup file =
      if file ∈ files then (f file).toOption else none := by
  induction files with
  | nil => rfl
  | cons g files ih =>
    rw [List.filterMap_cons]
    by_cases hg : file = g
    · subst hg
      rw [if_pos (List.mem_cons_self ..)]
      cases hf : f file with
      | error e => simpa [Except.toOption, hf] using ih
      | ok table => simp [Except.toOption]
    · have hmem : file ∈ g :: files ↔ file ∈ files := by simp [hg]
      simp only [hmem]
      cases f g with
      | error e => exact ih
      | ok table =>
        have hne : (file == g) = false := by simpa using hg
        simpa only [Except.toOption, Option.map_some, List.lookup_cons, hne] using ih

/-- Results that come in another order are put back into the order of the files. -/
theorem arranged_results (h : completed.Perm files) :
    arranged files (completed.filterMap fun g => (f g).toOption.map (Prod.mk g)) =
      files.filterMap fun g => (f g).toOption.map (Prod.mk g) := by
  unfold arranged
  refine List.filterMap_congr fun file hmem => ?_
  rw [lookup_results, if_pos (h.mem_iff.2 hmem)]

/-- The files that have results are in order. -/
theorem keys_results_sublist (files : List String) :
    ((files.filterMap fun g => (f g).toOption.map (Prod.mk g)).map Prod.fst).Sublist files := by
  induction files with
  | nil => exact .slnil
  | cons g files ih =>
    rw [List.filterMap_cons]
    cases f g with
    | error e => exact ih.cons g
    | ok table => exact ih.cons_cons g

end

theorem steady_together : Steady (together t settings files completed) :=
  (steady_mapM (fun file => steady_pair file) completed).bind fun _ => steady_pure _

/-- Files that are completed in any order have a map if each of them has a table. -/
theorem outcome_together_ok_iff (h : completed.Perm files) (map : RouteMap) :
    outcome (together t settings files completed) = .ok map ↔
      (∀ file ∈ files, ∃ table, outcome (analyze t settings file) = .ok table) ∧
        map = withRoutes (files.filterMap fun file =>
          (outcome (analyze t settings file)).toOption.map (Prod.mk file)) := by
  unfold together
  rw [outcome_bind _ fun _ => steady_pure _, outcome_tables]
  cases hm : completed.mapM fun file => (outcome (analyze t settings file)).map (Prod.mk file) with
  | error e =>
    simp only [Except.bind, reduceCtorEq, false_iff]
    rintro ⟨hall, -⟩
    have hok := (mapM_pair_ok_iff _ completed _).2 ⟨fun file hmem => hall file (h.mem_iff.1 hmem), rfl⟩
    rw [hm] at hok
    cases hok
  | ok entries =>
    obtain ⟨hall, rfl⟩ := (mapM_pair_ok_iff _ completed entries).1 hm
    show Except.ok (withRoutes (arranged files _)) = _ ↔ _
    rw [arranged_results _ h, Except.ok.injEq, eq_comm]
    exact ⟨fun hmap => ⟨fun file hmem => hall file (h.mem_iff.2 hmem), hmap⟩, fun hmap => hmap.2⟩

/-- One of the files that cannot be analyzed decides the error. -/
theorem outcome_together_error (h : completed.Perm files) {e : Failure}
    (herror : outcome (together t settings files completed) = .error e) :
    ∃ file ∈ files, outcome (analyze t settings file) = .error e := by
  unfold together at herror
  rw [outcome_bind _ fun _ => steady_pure _, outcome_tables] at herror
  cases hm : completed.mapM fun file => (outcome (analyze t settings file)).map (Prod.mk file) with
  | error e' =>
    rw [hm] at herror
    cases herror
    obtain ⟨before, file, after, rfl, -, hfile⟩ := (mapM_pair_error_iff _ completed e).1 hm
    exact ⟨file, h.mem_iff.1 (by simp), hfile⟩
  | ok entries => rw [hm] at herror; cases herror

/-- Files that are completed in order are analyzed as if one came after the other. -/
theorem outcome_oneByOne_eq (files : List String) :
    outcome (oneByOne t settings files) = outcome (together t settings files files) := by
  rw [outcome_oneByOne]
  unfold together
  rw [outcome_bind _ fun _ => steady_pure _, outcome_tables]
  cases hm : files.mapM fun file => (outcome (analyze t settings file)).map (Prod.mk file) with
  | error e => rfl
  | ok entries =>
    obtain ⟨-, rfl⟩ := (mapM_pair_ok_iff _ files entries).1 hm
    show _ = Except.ok (withRoutes (arranged files _))
    rw [arranged_results _ (.refl files)]
    rfl

/-! ## The counts -/

/-- What is counted for several files is what is counted for each of them. -/
theorem counting_tables {recorded : String → List Event}
    (hr : ∀ file, Counting (analyze t settings file) (recorded file))
    (hall : ∀ file ∈ files, ∃ table, outcome (analyze t settings file) = .ok table) :
    Counting (tables t settings files) (files.flatMap recorded) := by
  refine counting_mapM (fun file => steady_pair file) (fun file => (hr file).map (Prod.mk file)) ?_
  intro file hmem
  obtain ⟨table, htable⟩ := hall file hmem
  exact ⟨(file, table), by rw [outcome_bind _ fun _ => steady_pure _, htable]; rfl⟩

/-! ## Several workers -/

/-- **Several workers do what one does.**  In whatever order the files are completed, the map is that of
    a scan that analyzes one file after the other, with the files in their order.  There is no map
    exactly if that scan fails, and then the error is that of one of the files.  If none fails, the
    counts are those of that scan too, in whatever order the events of the files come. -/
theorem together_oneByOne (t : FileTree) (settings : Settings) (workers : Int)
    (files completed : List String) (h : completed.Perm files) (j k : Journal) :
    (∀ map, result (together t { settings with scanWorkers := workers } files completed) j = .ok map ↔
      result (oneByOne t { settings with scanWorkers := 1 } files) k = .ok map) ∧
    ((∃ e, result (together t { settings with scanWorkers := workers } files completed) j = .error e) ↔
      ∃ e, result (oneByOne t { settings with scanWorkers := 1 } files) k = .error e) ∧
    (∀ e, result (together t { settings with scanWorkers := workers } files completed) j = .error e →
      ∃ file ∈ files, result (analyze t settings file) k = .error e) ∧
    (∀ map, result (together t { settings with scanWorkers := workers } files completed) j = .ok map →
      (map.map Prod.fst).Sublist files ∧
      (journal (together t { settings with scanWorkers := workers } files completed) j).metrics.counts =
        (journal (oneByOne t { settings with scanWorkers := 1 } files) j).metrics.counts ∧
      ∃ recorded : String → List Event,
        (∀ file, Counting (analyze t settings file) (recorded file)) ∧
        ∀ happened : List Event, happened.Perm (files.flatMap recorded) →
          (happened.foldl Metrics.record j.metrics).counts =
            (journal (oneByOne t { settings with scanWorkers := 1 } files) j).metrics.counts) := by
  have hparallel : together t { settings with scanWorkers := workers } files completed =
      together t settings files completed := rfl
  have hsequential : oneByOne t { settings with scanWorkers := 1 } files = oneByOne t settings files :=
    rfl
  rw [hparallel, hsequential]
  simp only [steady_together.result_eq, (steady_oneByOne files).result_eq, outcome_oneByOne_eq,
    (steady_analyze settings _ _).result_eq]
  have hok : ∀ map, outcome (together t settings files completed) = .ok map ↔
      outcome (together t settings files files) = .ok map := fun map => by
    rw [outcome_together_ok_iff h, outcome_together_ok_iff (.refl files)]
  refine ⟨hok, ?_, fun e => outcome_together_error h, fun map hmap => ?_⟩
  · cases hp : outcome (together t settings files completed) with
    | ok map => simp [(hok map).1 hp]
    | error e =>
      cases hs : outcome (together t settings files files) with
      | ok map => rw [(hok map).2 hs] at hp; cases hp
      | error e' => simp
  · obtain ⟨hall, rfl⟩ := (outcome_together_ok_iff h map).1 hmap
    choose recorded hr using fun file => (traced_analyze (t := t) settings Typing.depthLimit file).counting
    have hcompleted := counting_tables hr fun file hmem => hall file (h.mem_iff.1 hmem)
    have hfiles := counting_tables hr hall
    have hcounts : ∀ happened : List Event, happened.Perm (files.flatMap recorded) →
        (happened.foldl Metrics.record j.metrics).counts =
          (journal (oneByOne t settings files) j).metrics.counts := by
      intro happened hperm
      have hdone : (journal (oneByOne t settings files) j).metrics =
          (files.flatMap recorded).foldl Metrics.record j.metrics := hfiles.map withRoutes j
      rw [hdone]
      exact Metrics.counts_perm hperm j.metrics
    refine ⟨?_, ?_, recorded, hr, hcounts⟩
    · have hfilter : (withRoutes (files.filterMap fun file =>
          (outcome (analyze t settings file)).toOption.map (Prod.mk file))).Sublist _ :=
        List.filter_sublist
      exact (hfilter.map Prod.fst).trans (keys_results_sublist _ files)
    · rw [← hcounts _ (h.flatMap_right recorded)]
      exact congrArg Metrics.counts (hcompleted.map (fun es => withRoutes (arranged files es)) j)

/-- Two workers complete two files the other way round.  The map has both, in their order. -/
theorem together_oneByOne_handlers :
    pairFiles.reverse.Perm pairFiles ∧
    result (together handlersProject { ({} : Settings) with scanWorkers := 2 } pairFiles
      pairFiles.reverse) {} = .ok pairMap ∧
    (journal (together handlersProject { ({} : Settings) with scanWorkers := 2 } pairFiles
        pairFiles.reverse) {}).metrics.counts =
      (journal (oneByOne handlersProject { ({} : Settings) with scanWorkers := 1 } pairFiles)
        {}).metrics.counts := by
  have h : pairFiles.reverse.Perm pairFiles := List.reverse_perm pairFiles
  obtain ⟨hmap, -, -, hcounts⟩ := together_oneByOne handlersProject {} 2 _ _ h {} {}
  have hparallel := (hmap pairMap).2 outcome_oneByOne_handlers
  exact ⟨h, hparallel, (hcounts pairMap hparallel).2.1⟩

/-! ## Whole scans -/

/-- A scan, with any number of workers, finds the files and has the map that it would have if it analyzed
    one after the other. -/
theorem outcome_routeMap (root : FilePath) : outcome (routeMap t settings root) =
    match Discovery.find t root settings.routeFileMarker settings.ignoredDirs with
    | .error e => .error (.scan e)
    | .ok files => outcome (oneByOne t settings files) := by
  unfold routeMap routeFiles
  cases hf : Discovery.find t root settings.routeFileMarker settings.ignoredDirs with
  | error e => rfl
  | ok files =>
    rw [outcome, result_bind]
    show result (counted _ >>= _) _ = _
    rw [result_bind]
    show result (if _ then together t settings files files >>= _ else oneByOne t settings files >>= _) _ = _
    split
    · rw [result_bind, steady_together.result_eq, ← outcome_oneByOne_eq]
      show _ = outcome (oneByOne t settings files)
      cases outcome (oneByOne t settings files) <;> rfl
    · rw [result_bind, (steady_oneByOne files).result_eq]
      show _ = outcome (oneByOne t settings files)
      cases outcome (oneByOne t settings files) <;> rfl

theorem outcome_routeMap_of_find {root : FilePath}
    (hf : Discovery.find t root settings.routeFileMarker settings.ignoredDirs = .ok files) :
    outcome (routeMap t settings root) = outcome (together t settings files files) := by
  rw [outcome_routeMap, hf]
  exact outcome_oneByOne_eq files

/-- The scan of a project with one file. -/
theorem outcome_routeMap_single {root : FilePath} {file : String}
    (hfind : Discovery.find t root settings.routeFileMarker settings.ignoredDirs = .ok [file]) :
    outcome (routeMap t settings root) =
      (outcome (analyze t settings file)).map fun table => withRoutes [(file, table)] := by
  rw [outcome_routeMap, hfind]
  simp only [outcome_oneByOne, List.mapM_cons, List.mapM_nil]
  cases outcome (analyze t settings file) <;> rfl

/-- The scan of a project with one file, in which there is a handler. -/
theorem outcome_routeMap_handler {root : FilePath} {file path : String}
    (hfind : Discovery.find t root ({} : Settings).routeFileMarker ({} : Settings).ignoredDirs = .ok [file])
    (hread : t.read (.ofText file) = .ok handlerSource.toUTF8)
    (h : ∃ root ∈ (Code.readModule (Code.Dialect.ofFile file) handlerSource).toOption,
      outcome (tableOf {} Typing.depthLimit file root) = .ok [(.get, handlerRoute path)]) :
    outcome (routeMap t {} root) = .ok [(file, [(.get, handlerRoute path)])] := by
  rw [outcome_routeMap_single hfind, outcome_analyze_handler hread h]
  rfl

/-- A project with one route file, in a directory below its routes. -/
def projectWith (directory : String) (file : Entry) : Directory :=
  [("src", .directory [("routes", .directory [(directory, .directory [("+server.ts", file)])])])]

end RouteAtlas.Scan
