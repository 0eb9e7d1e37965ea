/-
  RouteAtlas: what a scan counts, and its map.

  A scan that has a map counts what can be read off the map and the files: each file once, each route once,
  and each reason for a fallback once for the file, the route or the export that gives it.

  * `Counts.foldl_files`: what several files make of the counts;
  * `exportsOther` and `lacksResponse` say of a file and a method that the file gives a reason;
  * `countsOver_eq`: the counts of several files, in terms of the entries that they add to a map;
  * `counting_routeMap`: a scan with a map counts its files between its two phases;
  * `routeMap_reconciles`: the counts grow by the numbers of files, entries, routes and reasons, and the
    samples of a reason are the first files that it is counted for.
-/
import RouteAtlas.Proofs.Route.Depth
import RouteAtlas.Proofs.Route.Methods
import RouteAtlas.Proofs.Scan.Dependence
import RouteAtlas.Proofs.Scan.Relocation

namespace RouteAtlas

/-! ## What files count -/

namespace Counts

/-- Fallbacks on a file are counted for their reasons. -/
theorem foldl_fallbacksOn (file : String) : ∀ (reasons : List String) (c : Counts),
    (fallbacksOn file reasons).foldl after c =
      { c with fallbacks := fun reason => c.fallbacks reason + reasons.count reason }
  | [], c => rfl
  | given :: reasons, c => by
    show (fallbacksOn file reasons).foldl after (c.after (.fallback given file sampleLimit)) = _
    rw [foldl_fallbacksOn file reasons]
    ext reason <;> simp only [after]
    rw [List.count_cons]
    by_cases h : reason = given
    · simp [h, Nat.add_assoc, Nat.add_comm]
    · simp [h, Ne.symm h]

/-- **Files are counted with their routes and with the reasons that they give.** -/
theorem foldl_files (reasons : String → List String) (routes : String → Nat) :
    ∀ (files : List String) (c : Counts),
      (files.flatMap fun file => fallbacksOn file (reasons file) ++ [.file 0 (routes file)]).foldl after c =
        { c with
          filesScanned := c.filesScanned + files.length
          filesWithRoutes := c.filesWithRoutes + files.countP fun file => routes file != 0
          routesFound := c.routesFound + (files.map routes).sum
          fallbacks := fun reason =>
            c.fallbacks reason + (files.map fun file => (reasons file).count reason).sum }
  | [], c => by simp
  | file :: files, c => by
    rw [List.flatMap_cons, List.foldl_append, List.foldl_append, foldl_fallbacksOn, List.foldl_cons,
      List.foldl_nil, foldl_files reasons routes files]
    ext reason
    · simp only [after, List.length_cons]
      omega
    · simp only [after, List.countP_cons]
      by_cases h : routes file = 0
      · simp [h]
      · simp [h, Nat.add_assoc, Nat.add_comm]
    · simp only [after, List.map_cons, List.sum_cons]
      omega
    · rfl
    · rfl
    · simp only [after, List.map_cons, List.sum_cons]
      omega

end Counts

namespace Scan

open RouteAtlas.Analysis RouteAtlas.Handler RouteAtlas.Recording

/-! ## Files and entries -/

section
variable (t : FileTree) (settings : Settings) (file : String)

/-- The module in a file, if there is one. -/
def module? : Option Code.Node :=
  (outcome (readFile t file)).toOption

/-- The table of a file; the empty one if the file has none. -/
def tableAt : MethodTable :=
  (outcome (analyze t settings file)).toOption.getD []

/-- The reasons for fallbacks that a file gives. -/
def reasonsAt : List String :=
  ((module? t file).map fun root =>
    reasonsOver settings Typing.depthLimit file root false settings.methods).getD []

/-- A file exports a configured method, and not with a function. -/
def exportsOther (word : String) : Bool :=
  (module? t file).any fun root => isOtherExport root word

/-- The handler of a configured method has no response type: no response is found, or types nest too
    deep. -/
def lacksResponse (word : String) : Bool :=
  (module? t file).any fun root =>
    tooDeep settings Typing.depthLimit root word || hasNoResponse settings root word

end

/-- The routes in a map, each by its file and its method. -/
def routesOf (map : RouteMap) : List (String × Method) :=
  map.flatMap fun entry => entry.2.map fun route => (entry.1, route.1)

variable {t : FileTree} {settings : Settings} {root : FilePath} {files : List String}

/-- Entries without routes have no part in a sum over a map. -/
theorem sum_withRoutes {g : String × MethodTable → Nat} (h : ∀ file, g (file, []) = 0) :
    ∀ entries : List (String × MethodTable), ((withRoutes entries).map g).sum = (entries.map g).sum
  | [] => rfl
  | (file, table) :: entries => by
    have hrest := sum_withRoutes h entries
    unfold withRoutes at hrest ⊢
    cases table with
    | nil => simp [h, hrest]
    | cons e table => simp [hrest]

/-- A scan that has a map has a table for each of its files; those with routes are its entries. -/
theorem exists_tables {j : Journal} {map : RouteMap} (hok : result (routeMap t settings root) j = .ok map) :
    ∃ files, Discovery.find t root settings.routeFileMarker settings.ignoredDirs = .ok files ∧
      (∀ file ∈ files, outcome (analyze t settings file) = .ok (tableAt t settings file)) ∧
      map = withRoutes (files.map fun file => (file, tableAt t settings file)) := by
  rw [steady_routeMap.result_eq] at hok
  cases hf : Discovery.find t root settings.routeFileMarker settings.ignoredDirs with
  | error e =>
    rw [outcome_routeMap, hf] at hok
    cases hok
  | ok files =>
    rw [outcome_routeMap_of_find hf, outcome_together_ok_iff (.refl files)] at hok
    obtain ⟨hall, rfl⟩ := hok
    have htables : ∀ file ∈ files, outcome (analyze t settings file) = .ok (tableAt t settings file) := by
      intro file hmem
      obtain ⟨table, htable⟩ := hall file hmem
      rw [tableAt, htable]
      rfl
    refine ⟨files, rfl, htables, congrArg withRoutes ?_⟩
    rw [← List.filterMap_eq_map]
    refine List.filterMap_congr fun file hmem => ?_
    rw [htables file hmem]
    rfl

/-! ## Reasons -/

section
variable {file : String} (htable : outcome (analyze t settings file) = .ok (tableAt t settings file))
include htable

/-- A file with a table has a module, which gives its reasons. -/
theorem exists_module : ∃ root, outcome (readFile t file) = .ok root ∧ module? t file = some root ∧
    reasonsAt t settings file =
      reasonsOver settings Typing.depthLimit file root false settings.methods ∧
    outcome (tableOf settings Typing.depthLimit file root) = .ok (tableAt t settings file) := by
  rw [outcome_analyze] at htable
  cases hroot : outcome (readFile t file) with
  | error e =>
    rw [hroot] at htable
    cases htable
  | ok root =>
    rw [hroot] at htable
    have hmodule : module? t file = some root := by
      rw [module?, hroot]
      rfl
    exact ⟨root, rfl, hmodule, by rw [reasonsAt, hmodule]; rfl, htable⟩

/-- A file gives a reason for each method that it exports without a function. -/
theorem count_exportsOther : (reasonsAt t settings file).count "non_function_export" =
    settings.methods.countP (exportsOther t file) := by
  obtain ⟨root, -, hmodule, hreasons, -⟩ := exists_module htable
  have hother : exportsOther t file = isOtherExport root := funext fun word => by
    simp [exportsOther, hmodule]
  rw [hreasons, hother]
  exact count_otherExport settings.methods false

/-- A file gives a reason for each route whose handler has no response type. -/
theorem count_lacksResponse (hd : settings.methods.Nodup) :
    (reasonsAt t settings file).count "return_type_unknown" =
      (tableAt t settings file).countP fun entry => lacksResponse t settings file entry.1.word := by
  obtain ⟨root, -, hmodule, hreasons, hok⟩ := exists_module htable
  have hlacks : ∀ word, lacksResponse t settings file word =
      (tooDeep settings Typing.depthLimit root word || hasNoResponse settings root word) := by
    intro word
    simp [lacksResponse, hmodule]
  -- Only a method with a handler can lack a response.
  have hhandled : ∀ word, (lacksResponse t settings file word && isHandled root word) =
      lacksResponse t settings file word := by
    intro word
    rw [hlacks]
    unfold isHandled tooDeep hasNoResponse
    cases handler? (exports root) word <;> simp
  have hcount : ∀ word, (guessesFor settings Typing.depthLimit root word).count "return_type_unknown" =
      if lacksResponse t settings file word then 1 else 0 := by
    intro word
    rw [count_unknown, hlacks]
  calc (reasonsAt t settings file).count "return_type_unknown"
      = settings.methods.countP (lacksResponse t settings file) := by
        rw [hreasons, count_guess (by decide) (by decide), count_flatMap_eq_countP hcount]
    _ = (settings.methods.filter (isHandled root)).countP (lacksResponse t settings file) := by
        rw [List.countP_filter]
        simp only [hhandled]
    _ = (tableAt t settings file).countP fun entry => lacksResponse t settings file entry.1.word := by
        rw [← words_tableOf hd hok, MethodTable.words, List.countP_map]
        rfl

/-- A file gives its place as a reason once, if it has routes. -/
theorem count_isOutside (hd : settings.methods.Nodup) :
    (reasonsAt t settings file).count "routes_root_missing" =
      if !(tableAt t settings file).isEmpty && isOutside settings file then 1 else 0 := by
  obtain ⟨root, -, -, hreasons, hok⟩ := exists_module htable
  have hany : settings.methods.any (isHandled root) = !(tableAt t settings file).isEmpty := by
    have hempty : (tableAt t settings file).isEmpty = (settings.methods.filter (isHandled root)).isEmpty := by
      rw [← words_tableOf hd hok, MethodTable.words, List.isEmpty_map]
    rw [hempty, Bool.eq_iff_iff]
    simp
  rw [hreasons, count_outside, hany, Bool.not_false, Bool.true_and, Bool.and_comm]

end

/-! ## Events -/

/-- The events that a file counts if it has a table. -/
def eventsAt (t : FileTree) (settings : Settings) (file : String) : List Event :=
  fallbacksOn file (reasonsAt t settings file) ++ [.file 0 (tableAt t settings file).length]

/-- A scan keeps ten samples of each reason. -/
theorem keepSamples_files (files : List String) : Metrics.KeepSamples 10
    (.phase "discover" 0 :: (files.flatMap (eventsAt t settings) ++ [.phase "analyze" 0])) := by
  intro reason about kept hmem
  simp only [List.mem_cons, reduceCtorEq, false_or, List.mem_append, List.mem_flatMap, eventsAt,
    fallbacksOn, List.mem_map, List.not_mem_nil, or_false, Event.fallback.injEq] at hmem
  obtain ⟨-, -, -, -, -, -, rfl⟩ := hmem
  rfl

/-- The analysis of a file counts some events; these ones if it has a table. -/
theorem exists_recorded (t : FileTree) (settings : Settings) (file : String) :
    ∃ events, Counting (analyze t settings file) events ∧
      (outcome (analyze t settings file) = .ok (tableAt t settings file) →
        events = eventsAt t settings file) := by
  by_cases htable : outcome (analyze t settings file) = .ok (tableAt t settings file)
  · obtain ⟨root, hroot, -, hreasons, -⟩ := exists_module htable
    refine ⟨_, counting_analyze hroot htable, fun _ => ?_⟩
    rw [eventsAt, hreasons]
  · obtain ⟨events, hcounting⟩ := (traced_analyze settings Typing.depthLimit file (t := t)).counting
    exact ⟨events, hcounting, fun h => absurd h htable⟩

/-- **A scan with a map counts its files between its two phases.** -/
theorem counting_routeMap
    (hf : Discovery.find t root settings.routeFileMarker settings.ignoredDirs = .ok files)
    (htables : ∀ file ∈ files, outcome (analyze t settings file) = .ok (tableAt t settings file)) :
    Counting (routeMap t settings root)
      (.phase "discover" 0 :: (files.flatMap (eventsAt t settings) ++ [.phase "analyze" 0])) := by
  choose recorded hrecorded hevents using exists_recorded t settings
  have hall : ∀ file ∈ files, ∃ table, outcome (analyze t settings file) = .ok table :=
    fun file hmem => ⟨_, htables file hmem⟩
  have hfiles : Counting (tables t settings files) (files.flatMap (eventsAt t settings)) := by
    rw [← List.flatMap_congr fun file hmem => hevents file (htables file hmem)]
    exact counting_tables hrecorded hall
  obtain ⟨map, hmap⟩ : ∃ map, outcome (oneByOne t settings files) = .ok map := by
    rw [outcome_oneByOne_eq]
    exact ⟨_, (outcome_together_ok_iff (.refl files) _).2 ⟨hall, rfl⟩⟩
  unfold routeMap routeFiles
  rw [hf]
  refine (counting_pure files).bind (steady_pure _) rfl ?_
  have hdiscover : Counting (counted fun m => m.timePhase "discover" 0) [.phase "discover" 0] :=
    fun _ => rfl
  refine hdiscover.bind (steady_counted _) rfl ?_
  have hanalyze : Counting (do counted fun m => m.timePhase "analyze" 0; return map)
      [.phase "analyze" 0] := fun _ => rfl
  show Counting (if _ then together t settings files files >>= _ else oneByOne t settings files >>= _) _
  split
  · exact (hfiles.map _).bind steady_together (outcome_oneByOne_eq files ▸ hmap) hanalyze
  · exact (hfiles.map _).bind (steady_oneByOne files) hmap hanalyze

/-! ## Counts -/

section
variable (htables : ∀ file ∈ files, outcome (analyze t settings file) = .ok (tableAt t settings file))
include htables

/-- What a list of files gives as a reason is what each of them gives. -/
theorem sum_count_reason {reason : String} {g : String → Nat}
    (h : ∀ file, outcome (analyze t settings file) = .ok (tableAt t settings file) →
      (reasonsAt t settings file).count reason = g file) :
    (files.map fun file => (reasonsAt t settings file).count reason).sum = (files.map g).sum :=
  congrArg List.sum (List.map_congr_left fun file hmem => h file (htables file hmem))

/-- Files give as many reasons as there are methods that they export without a function. -/
theorem sum_exportsOther :
    (files.map fun file => (reasonsAt t settings file).count "non_function_export").sum =
      (files ×ˢ settings.methods).countP fun pair => exportsOther t pair.1 pair.2 := by
  rw [sum_count_reason htables fun file => count_exportsOther]
  show _ = (files.flatMap fun file => settings.methods.map (Prod.mk file)).countP _
  rw [List.countP_flatMap]
  refine congrArg List.sum (List.map_congr_left fun file _ => ?_)
  rw [Function.comp_apply, List.countP_map]
  rfl

/-- Files give as many reasons as there are routes in their map whose handler has no response type. -/
theorem sum_lacksResponse (hd : settings.methods.Nodup) :
    (files.map fun file => (reasonsAt t settings file).count "return_type_unknown").sum =
      (routesOf (withRoutes (files.map fun file => (file, tableAt t settings file)))).countP
        fun route => lacksResponse t settings route.1 route.2.word := by
  rw [sum_count_reason htables fun file h => count_lacksResponse h hd, routesOf, List.countP_flatMap,
    sum_withRoutes fun file => rfl, List.map_map]
  refine congrArg List.sum (List.map_congr_left fun file _ => ?_)
  simp only [Function.comp_apply, List.countP_map]
  rfl

/-- Files give as many reasons as there are entries in their map that are outside the routes root. -/
theorem sum_isOutside (hd : settings.methods.Nodup) :
    (files.map fun file => (reasonsAt t settings file).count "routes_root_missing").sum =
      (withRoutes (files.map fun file => (file, tableAt t settings file))).countP
        fun entry => isOutside settings entry.1 := by
  have hone : ∀ p : String → Bool, (files.map fun file => if p file then 1 else 0).sum = files.countP p := by
    intro p
    rw [← List.flatMap_singleton' files, List.countP_flatMap, List.flatMap_singleton']
    simp [Function.comp_def, List.countP_singleton]
  rw [sum_count_reason htables fun file h => count_isOutside h hd, hone, withRoutes, List.countP_filter,
    List.countP_map]
  refine List.countP_congr fun file _ => ?_
  simp [and_comm]

end

/-- **A scan with a map counts its files, and the reasons that they give.** -/
theorem counts_routeMap
    (hf : Discovery.find t root settings.routeFileMarker settings.ignoredDirs = .ok files)
    (htables : ∀ file ∈ files, outcome (analyze t settings file) = .ok (tableAt t settings file))
    (j : Journal) :
    (journal (routeMap t settings root) j).metrics.counts =
      { j.metrics.counts with
        filesScanned := j.metrics.counts.filesScanned + files.length
        filesWithRoutes := j.metrics.counts.filesWithRoutes +
          files.countP fun file => (tableAt t settings file).length != 0
        routesFound := j.metrics.counts.routesFound +
          (files.map fun file => (tableAt t settings file).length).sum
        fallbacks := fun reason => j.metrics.counts.fallbacks reason +
          (files.map fun file => (reasonsAt t settings file).count reason).sum } := by
  rw [counting_routeMap hf htables j, Metrics.counts_foldl, List.foldl_cons, List.foldl_append]
  exact Counts.foldl_files (reasonsAt t settings) (fun file => (tableAt t settings file).length) files _

/-- **The counts of a scan reconcile with its map.**  If no method is configured twice, a scan that has a
    map adds to the counts, whatever they were: the files that it finds; the entries of the map, and the
    routes in it; the pairs of a file and a configured method that the file exports and not with a
    function; the routes whose handler has no response type; and the entries, not the routes, whose file
    is outside the routes root.  It counts one event after the other.  Whatever events are counted, the
    samples of a reason are the first ten files that it is counted for; a reason is in the metrics exactly
    if there is such a file, and it has samples exactly if it is counted. -/
theorem routeMap_reconciles (t : FileTree) (settings : Settings) (root : FilePath) (j : Journal) :
    (settings.methods.Nodup → ∀ map, result (routeMap t settings root) j = .ok map →
      ∃ files, Discovery.find t root settings.routeFileMarker settings.ignoredDirs = .ok files ∧
        let before := j.metrics.counts
        let after := (journal (routeMap t settings root) j).metrics.counts
        after.filesScanned = before.filesScanned + files.length ∧
        after.filesWithRoutes = before.filesWithRoutes + map.length ∧
        after.routesFound = before.routesFound + (routesOf map).length ∧
        after.fallbacks "non_function_export" = before.fallbacks "non_function_export" +
          (files ×ˢ settings.methods).countP (fun pair => exportsOther t pair.1 pair.2) ∧
        after.fallbacks "return_type_unknown" = before.fallbacks "return_type_unknown" +
          (routesOf map).countP (fun route => lacksResponse t settings route.1 route.2.word) ∧
        after.fallbacks "routes_root_missing" = before.fallbacks "routes_root_missing" +
          map.countP (fun entry => isOutside settings entry.1) ∧
        ∃ events, Metrics.KeepSamples 10 events ∧
          (journal (routeMap t settings root) j).metrics = events.foldl Metrics.record j.metrics) ∧
    ∀ events, Metrics.KeepSamples 10 events → ∀ reason,
      let m := events.foldl Metrics.record {}
      m.samplesOf reason = (filesFor reason events).take 10 ∧
      m.counts.fallbacks reason = (filesFor reason events).length ∧
      (reason ∈ m.fallbacks.map Fallback.reason ↔ filesFor reason events ≠ []) ∧
      (m.samplesOf reason ≠ [] ↔ m.counts.fallbacks reason ≠ 0) := by
  refine ⟨fun hd map hok => ?_, fun events hkeep reason => ?_⟩
  · obtain ⟨files, hf, htables, rfl⟩ := exists_tables hok
    have hcounts := counts_routeMap hf htables j
    have hreason : ∀ reason, (journal (routeMap t settings root) j).metrics.counts.fallbacks reason =
        j.metrics.counts.fallbacks reason +
          (files.map fun file => (reasonsAt t settings file).count reason).sum :=
      congrFun (congrArg Counts.fallbacks hcounts)
    refine ⟨files, hf, congrArg Counts.filesScanned hcounts,
      (congrArg Counts.filesWithRoutes hcounts).trans (congrArg (_ + ·) ?_),
      (congrArg Counts.routesFound hcounts).trans (congrArg (_ + Nat.cast ·) ?_),
      (hreason _).trans (congrArg _ (sum_exportsOther htables)),
      (hreason _).trans (congrArg _ (sum_lacksResponse htables hd)),
      (hreason _).trans (congrArg _ (sum_isOutside htables hd)), _, ?_, counting_routeMap hf htables j⟩
    · rw [withRoutes, ← List.countP_eq_length_filter, List.countP_map]
      refine List.countP_congr fun file _ => ?_
      simp
    · simp only [routesOf, List.length_flatMap, List.length_map]
      rw [sum_withRoutes fun file => rfl, List.map_map]
      rfl
    · exact keepSamples_files _
  · have hsamples : (events.foldl Metrics.record {}).samplesOf reason = (filesFor reason events).take 10 :=
      Metrics.samplesOf_foldl reason hkeep {}
    have hcount : (events.foldl Metrics.record {}).counts.fallbacks reason =
        (filesFor reason events).length := by
      rw [Metrics.counts_foldl, Counts.fallbacks_foldl]
      exact Nat.zero_add _
    refine ⟨hsamples, hcount, ?_, ?_⟩
    · simpa using Metrics.mem_reasons_foldl reason events {}
    · rw [hsamples, hcount]
      simp

/-- A module that exports one method without a function and one whose handler has no response. -/
def mutedSource : String := "export const GET='x';export function POST()\x7b\x7d"

/-- A project with this module outside the routes root. -/
def mutedProject : FileTree :=
  { root := [("src", .directory [("a+server.ts", .file mutedSource.toUTF8)])] }

/-- The route in this module. -/
def mutedRoute : Route :=
  { method := .post, declaredType := "() => void", returnType := "any", documentation := none
    queryParameters := [], bodyType := none, urls := ["/src/a+server.ts"], path := "/src/a+server.ts" }

/-- The map of this project. -/
def mutedMap : RouteMap := [("/src/a+server.ts", [(.post, mutedRoute)])]

/-- Each reason is given once, and of eleven files ten are samples. -/
theorem routeMap_reconciles_muted :
    ({} : Settings).methods.Nodup ∧
    result (routeMap mutedProject {} (.ofText "/src")) {} = .ok mutedMap ∧
    let after := (journal (routeMap mutedProject {} (.ofText "/src")) {}).metrics.counts
    after.filesScanned = 1 ∧ after.filesWithRoutes = 1 ∧ after.routesFound = 1 ∧
      after.fallbacks "non_function_export" = 1 ∧ after.fallbacks "return_type_unknown" = 1 ∧
      after.fallbacks "routes_root_missing" = 1 ∧
    let events := (List.range 11).map fun n => .fallback "reason" n.repr 10
    Metrics.KeepSamples 10 events ∧
      (events.foldl Metrics.record {}).samplesOf "reason" = (List.range 10).map Nat.repr := by
  have hd : ({} : Settings).methods.Nodup := by decide
  have hfind : Discovery.find mutedProject (.ofText "/src") ({} : Settings).routeFileMarker
      ({} : Settings).ignoredDirs = .ok ["/src/a+server.ts"] := by cbv
  have hdecoded : Text.decoded mutedSource.toUTF8 = some mutedSource := by decide +kernel
  have hread : mutedProject.read (.ofText "/src/a+server.ts") = .ok mutedSource.toUTF8 := by cbv
  obtain ⟨code, hcode, htable, hother, hlacks, houtside⟩ :
      ∃ code ∈ (Code.readModule (Code.Dialect.ofFile "/src/a+server.ts") mutedSource).toOption,
        outcome (tableOf {} Typing.depthLimit "/src/a+server.ts" code) = .ok [(.post, mutedRoute)] ∧
        ({} : Settings).methods.countP (isOtherExport code) = 1 ∧
        (tooDeep {} Typing.depthLimit code "POST" || hasNoResponse {} code "POST") = true ∧
        isOutside {} "/src/a+server.ts" = true := by
    decide +kernel
  have hroot := outcome_readFile_of_module ⟨_, hread, hdecoded⟩ hcode
  have hmap : result (routeMap mutedProject {} (.ofText "/src")) {} = .ok mutedMap := by
    show outcome _ = _
    rw [outcome_routeMap_single hfind, outcome_analyze_module hroot, htable]
    rfl
  obtain ⟨hcounts, hsamples⟩ := routeMap_reconciles mutedProject {} (.ofText "/src") {}
  obtain ⟨files, hf, hscanned, hentries, hroutes, hexports, hresponses, hplaces, -⟩ := hcounts hd _ hmap
  obtain rfl : ["/src/a+server.ts"] = files := Except.ok.inj (hfind.symm.trans hf)
  have hmodule : module? mutedProject "/src/a+server.ts" = some code := by
    rw [module?, hroot]
    rfl
  have hone : (["/src/a+server.ts"] ×ˢ ({} : Settings).methods).countP
      (fun pair => exportsOther mutedProject pair.1 pair.2) = 1 := by
    rw [← hother]
    show (({} : Settings).methods.map (Prod.mk "/src/a+server.ts") ++ []).countP _ = _
    rw [List.append_nil, List.countP_map]
    refine List.countP_congr fun word _ => ?_
    simp [exportsOther, hmodule]
  have hmute : lacksResponse mutedProject {} "/src/a+server.ts" "POST" = true := by
    rw [lacksResponse, hmodule]
    exact hlacks
  have hkeep : Metrics.KeepSamples 10
      ((List.range 11).map fun n => .fallback "reason" n.repr 10) := by
    intro reason about kept hmem
    obtain ⟨n, -, hevent⟩ := List.mem_map.1 hmem
    cases hevent
    rfl
  have hresponse : (routesOf mutedMap).countP
      (fun route => lacksResponse mutedProject {} route.1 route.2.word) = 1 :=
    List.countP_singleton.trans (if_pos hmute)
  have hplace : mutedMap.countP (fun entry => isOutside {} entry.1) = 1 :=
    List.countP_singleton.trans (if_pos houtside)
  rw [hone] at hexports
  rw [hresponse] at hresponses
  rw [hplace] at hplaces
  exact ⟨hd, hmap, hscanned, hentries, hroutes, hexports, hresponses, hplaces, hkeep,
    (hsamples _ hkeep "reason").1.trans (by decide +kernel)⟩

end Scan

end RouteAtlas
