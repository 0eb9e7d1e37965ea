/-
  RouteAtlas: scans of a tree that is moved.

  Where a project stands takes part in the paths of its files and in nothing else, as long as the routes
  root is in what lies below the project.

  * `parallel_tableOf`, `parallel_analyze`: files with the same content and the same route are analyzed in
    parallel, whatever their paths are;
  * `routeMap_eq`: a scan with any number of workers does what a scan with one does;
  * `routeMap_relocated`: two scans of the same tree in two places both fail, or have the same map but for
    the places in front of the paths, and count the same.
-/
import RouteAtlas.Proofs.Discovery.Moved
import RouteAtlas.Proofs.Location.Below
import RouteAtlas.Proofs.Recording.Parallel
import RouteAtlas.Proofs.Scan.Together

namespace RouteAtlas

open RouteAtlas.Code RouteAtlas.Handler RouteAtlas.Recording

/-! ## Files with different paths -/

namespace Analysis

variable {settings : Settings} {t t' : FileTree} {file file' path : String}

theorem parallel_handlerTypes (limit : Nat) (method : String) (root : Node) (d : FunctionDeclaration) :
    Parallel Eq (handlerTypes settings limit file method root d)
      (handlerTypes settings limit file' method root d) := by
  unfold handlerTypes
  cases handlerTypes? settings limit root d with
  | some types => exact parallel_pure rfl
  | none =>
    exact (parallel_logged _ _ _).bind fun _ _ _ => (parallel_fallBack _ _ _).bind fun _ _ _ =>
      parallel_pure rfl

theorem parallel_knownResponse (response : Option String) :
    Parallel Eq (knownResponse settings file response) (knownResponse settings file' response) := by
  cases response with
  | some type => exact parallel_pure rfl
  | none => exact (parallel_fallBack _ _ _).bind fun _ _ _ => parallel_pure rfl

theorem parallel_routeOf (limit : Nat) (method path : String) (root : Node) (d : FunctionDeclaration) :
    Parallel Eq (routeOf settings limit file method path root d)
      (routeOf settings limit file' method path root d) := by
  refine (parallel_handlerTypes limit method root d).bind fun types _ htypes => ?_
  subst htypes
  refine (parallel_knownResponse types.response).bind fun returnType _ hreturn => ?_
  subst hreturn
  cases Method.ofWord? method with
  | none => exact parallel_throw _ _
  | some m => exact parallel_pure rfl

section
variable (hpath : ∀ known, pathOf settings file known = pure (known.getD path))
  (hpath' : ∀ known, pathOf settings file' known = pure (known.getD path))
include hpath hpath'

theorem parallel_addMethod (limit : Nat) (root : Node) (exported : Declarations) (progress : Progress)
    (method : String) : Parallel Eq (addMethod settings limit file root exported progress method)
      (addMethod settings limit file' root exported progress method) := by
  unfold addMethod
  split
  · exact parallel_pure rfl
  · split
    · exact (parallel_fallBack _ _ _).bind fun _ _ _ => parallel_pure rfl
    · rw [hpath, hpath', pure_bind, pure_bind]
      refine (parallel_routeOf limit method _ root _).bind fun route _ hroute => ?_
      exact hroute ▸ parallel_pure rfl

/-- Modules in different files that have the same place have the same table. -/
theorem parallel_tableOf (limit : Nat) (root : Node) :
    Parallel Eq (tableOf settings limit file root) (tableOf settings limit file' root) := by
  refine (parallel_foldlM (fun progress _ method he => ?_) settings.methods rfl).bind
    fun progress _ he => he ▸ parallel_pure rfl
  exact he ▸ parallel_addMethod hpath hpath' limit root _ progress method

end

/-- Files with the same content are read in parallel. -/
theorem parallel_readFile (hdialect : Dialect.ofFile file = Dialect.ofFile file')
    (hread : ∀ content, t.read (.ofText file) = .ok content ↔ t'.read (.ofText file') = .ok content) :
    Parallel Eq (readFile t file) (readFile t' file') := by
  unfold readFile
  cases hr : t.read (.ofText file) with
  | error e =>
    cases hr' : t'.read (.ofText file') with
    | error e' => exact parallel_failing _ _
    | ok content => rw [(hread content).2 hr'] at hr; cases hr
  | ok content =>
    rw [(hread content).1 hr, hdialect]
    simp only
    cases Text.decoded content with
    | none => exact parallel_failing _ _
    | some source =>
      simp only
      cases readModule (Dialect.ofFile file') source with
      | error fault => exact parallel_failing _ _
      | ok root => exact parallel_pure rfl

/-- **Files with the same content and the same place are analyzed in parallel.** -/
theorem parallel_analyze (hdialect : Dialect.ofFile file = Dialect.ofFile file')
    (hread : ∀ content, t.read (.ofText file) = .ok content ↔ t'.read (.ofText file') = .ok content)
    (hpath : ∀ known, pathOf settings file known = pure (known.getD path))
    (hpath' : ∀ known, pathOf settings file' known = pure (known.getD path)) (limit : Nat) :
    Parallel Eq (analyze t settings file limit) (analyze t' settings file' limit) := by
  refine (parallel_readFile hdialect hread).bind fun root _ hroot => ?_
  subst hroot
  refine (parallel_tableOf hpath hpath' limit root).bind fun table _ htable => ?_
  subst htable
  exact (parallel_counted (.file 0 table.length) (.file 0 table.length) (fun _ => rfl) (fun _ => rfl)
    fun _ => rfl).bind fun _ _ _ => parallel_pure rfl

end Analysis

/-! ## Projects in different places -/

namespace Scan

open RouteAtlas.Analysis RouteAtlas.Discovery

variable {t t' : FileTree} {settings : Settings} {root root' : FilePath} {place place' : Place}

/-- Work is the same if it results in the same and records the same. -/
theorem recording_ext {α : Type} {work work' : Recording α} (hresult : ∀ j, result work j = result work' j)
    (hjournal : ∀ j, journal work j = journal work' j) : work = work' :=
  funext fun j => Prod.ext (hresult j) (hjournal j)

/-- Several workers that complete the files in their order do what one does. -/
theorem together_in_order (files : List String) :
    together t settings files files = oneByOne t settings files := by
  refine recording_ext (fun j => ?_) fun j => ?_
  · rw [steady_together.result_eq, (steady_oneByOne files).result_eq, outcome_oneByOne_eq]
  · unfold together oneByOne
    rw [journal_bind, journal_bind]
    cases result (tables t settings files) j <;> rfl

/-- **A scan with any number of workers** does what a scan with one worker does. -/
theorem routeMap_eq : routeMap t settings root = do
    let files ← routeFiles t settings root
    counted fun m => m.timePhase "discover" 0
    let map ← oneByOne t settings files
    counted fun m => m.timePhase "analyze" 0
    return map := by
  unfold routeMap
  simp only [together_in_order, ite_self]

/-- The form of the language of a file does not depend on the place that it stands below. -/
theorem ofFile_below {above : Place} {name : String}
    (hnames : ∀ n ∈ place ++ (above ++ [name]), IsPart n) :
    Dialect.ofFile (Place.text (place ++ (above ++ [name]))) = Dialect.ofFile (Place.text [name]) := by
  have hname : FilePath.name ⟨"/", place ++ (above ++ [name])⟩ = FilePath.name ⟨"/", [name]⟩ := by
    simp [FilePath.name]
  unfold Dialect.ofFile FilePath.suffix
  rw [FilePath.ofText_placeText hnames, hname,
    FilePath.ofText_placeText fun n hn => hnames n (by simp [List.mem_singleton.1 hn])]

/-- A file that is found below both places is analyzed in parallel. -/
theorem parallel_analyze_below (ht : t.Named) (ht' : t'.Named) (h : t.SameTree place t' place')
    {entries entries' : Directory} {refusal refusal' : Option String}
    (he : t.at? place = some (.directory entries refusal))
    (he' : t'.at? place' = some (.directory entries' refusal')) {below : Place}
    (hs : StandsAt t place entries settings.routeFileMarker settings.ignoredDirs below)
    (hroutes : Location.HasRoot settings.routesRootMarker below) (limit : Nat) :
    Parallel Eq (analyze t settings (Place.text (place ++ below)) limit)
      (analyze t' settings (Place.text (place' ++ below)) limit) := by
  obtain ⟨path, hpath⟩ := Location.exists_route_below hroutes settings.routeFileMarker
  have hknown : ∀ (place : Place) (known : Option String),
      pathOf settings (Place.text (place ++ below)) known = pure (known.getD path) := by
    intro place known
    cases known with
    | some path => rfl
    | none => exact hpath settings.strictRoutesRoot place
  have hparts : ∀ n ∈ place ++ below, IsPart n := fun n hn => (hs.names ht he n hn).toIsPart
  have hparts' : ∀ n ∈ place' ++ below, IsPart n := fun n hn =>
    ((hs.moved h he he').names ht' he' n hn).toIsPart
  refine parallel_analyze ?_ (fun content => ?_) (hknown place) (hknown place') limit
  · obtain ⟨above, name, rfl, -⟩ := hs
    rw [ofFile_below hparts, ofFile_below hparts']
  · rw [FilePath.ofText_placeText hparts, FilePath.ofText_placeText hparts']
    exact read_moved ht ht' h he hs content

/-- The entry of a file with its relative place, in the map of a project that stands at a place. -/
def entryBelow (place : Place) (e : Place × MethodTable) : String × MethodTable :=
  (Place.text (place ++ e.1), e.2)

/-- Two maps are the same but for the places of their projects. -/
def SameMaps (place place' : Place) (map map' : RouteMap) : Prop :=
  ∃ entries : List (Place × MethodTable),
    map = entries.map (entryBelow place) ∧ map' = entries.map (entryBelow place')

theorem withRoutes_below (place : Place) (entries : List (Place × MethodTable)) :
    withRoutes (entries.map (entryBelow place)) =
      (entries.filter fun e => !e.2.isEmpty).map (entryBelow place) :=
  List.filter_map ..

/-- The files of a project are analyzed in parallel, one after the other. -/
theorem parallel_oneByOne {belows : List Place}
    (h : ∀ below ∈ belows, Parallel Eq (analyze t settings (Place.text (place ++ below)))
      (analyze t' settings (Place.text (place' ++ below)))) :
    Parallel (SameMaps place place')
      (oneByOne t settings (belows.map fun below => Place.text (place ++ below)))
      (oneByOne t' settings (belows.map fun below => Place.text (place' ++ below))) := by
  unfold oneByOne tables
  rw [List.mapM_map, List.mapM_map]
  refine (parallel_mapM (entryBelow place) (entryBelow place')
    fun below hbelow => ?_).bind fun maps maps' ⟨entries, hmaps, hmaps'⟩ => ?_
  · refine (h below hbelow).bind fun table _ htable => ?_
    subst htable
    exact parallel_pure ⟨(below, table), rfl, rfl⟩
  · subst hmaps hmaps'
    exact parallel_pure ⟨_, withRoutes_below place entries, withRoutes_below place' entries⟩

/-- **Scans of the same tree in two places** go in parallel. -/
theorem parallel_routeMap (ht : t.Named) (ht' : t'.Named) (hroot : t.placeOf root = .ok place)
    (hroot' : t'.placeOf root' = .ok place') (h : t.SameTree place t' place')
    (hroutes : ∀ files, find t root settings.routeFileMarker settings.ignoredDirs = .ok files →
      ∀ below, (∀ name ∈ below, IsEntryName name) → Place.text (place ++ below) ∈ files →
        Location.HasRoot settings.routesRootMarker below) :
    Parallel (SameMaps place place') (routeMap t settings root) (routeMap t' settings root') := by
  rw [routeMap_eq, routeMap_eq]
  unfold routeFiles
  rcases find_moved ht ht' h hroot hroot' with
    ⟨e, e', hfind, hfind'⟩ | ⟨entries, belows, he, hbelows, hfind, hfind'⟩
  · rw [hfind, hfind']
    exact parallel_failing _ _
  · obtain ⟨entries', refusal', he'⟩ := h.hasDirectory_iff.1 ⟨entries, none, he⟩
    rw [hfind, hfind']
    simp only [pure_bind]
    refine (parallel_counted (.phase "discover" 0) (.phase "discover" 0) (fun _ => rfl) (fun _ => rfl)
      fun _ => rfl).bind fun _ _ _ => ?_
    have hfiles : ∀ below ∈ belows, Parallel Eq (analyze t settings (Place.text (place ++ below)))
        (analyze t' settings (Place.text (place' ++ below))) := fun below hbelow =>
      parallel_analyze_below ht ht' h he he' (hbelows below hbelow)
        (hroutes _ hfind below (fun name hname => (hbelows below hbelow).names ht he name
          (List.mem_append_right _ hname)) (List.mem_map_of_mem hbelow)) _
    refine (parallel_oneByOne hfiles).bind fun map map' hmaps => ?_
    exact (parallel_counted (.phase "analyze" 0) (.phase "analyze" 0) (fun _ => rfl) (fun _ => rfl)
      fun _ => rfl).bind fun _ _ _ => parallel_pure hmaps

/-- **A project can be moved.**  Two scans of the same tree in two places both fail, or both give a map.
    Then the maps have the same entries in the same order, with the same routes, but for the places in
    front of the paths; and the scans count the same.  This needs that the names of the routes marker
    stand in what lies below the place, as routes are read off it, for each file that is found. -/
theorem routeMap_relocated (ht : t.Named) (ht' : t'.Named) (hroot : t.placeOf root = .ok place)
    (hroot' : t'.placeOf root' = .ok place') (h : t.SameTree place t' place')
    (hroutes : ∀ files, find t root settings.routeFileMarker settings.ignoredDirs = .ok files →
      ∀ below, (∀ name ∈ below, IsEntryName name) → Place.text (place ++ below) ∈ files →
        Location.HasRoot settings.routesRootMarker below)
    (j : Journal) :
    (∃ e e', result (routeMap t settings root) j = .error e ∧
      result (routeMap t' settings root') j = .error e') ∨
    ∃ entries : List (Place × MethodTable),
      result (routeMap t settings root) j = .ok (entries.map (entryBelow place)) ∧
      result (routeMap t' settings root') j = .ok (entries.map (entryBelow place')) ∧
      (journal (routeMap t settings root) j).metrics.counts =
        (journal (routeMap t' settings root') j).metrics.counts := by
  obtain ⟨hagree, hcounts⟩ := parallel_routeMap ht ht' hroot hroot' h hroutes j j rfl
  cases hr : result (routeMap t settings root) j with
  | error e =>
    cases hr' : result (routeMap t' settings root') j with
    | error e' => exact Or.inl ⟨e, e', rfl, rfl⟩
    | ok map' =>
      rw [hr, hr'] at hagree
      exact hagree.elim
  | ok map =>
    cases hr' : result (routeMap t' settings root') j with
    | error e' =>
      rw [hr, hr'] at hagree
      exact hagree.elim
    | ok map' =>
      rw [hr, hr'] at hagree
      obtain ⟨entries, rfl, rfl⟩ := hagree
      exact Or.inr ⟨entries, rfl, rfl, hcounts⟩

/-! ## A project in two places -/

/-- A project that stands in two places; one of them has the names of the routes marker, the other one
    that of an ignored directory. -/
def twice (entries : Directory) : FileTree :=
  { root := [("src", .directory [("routes", .directory entries)]), ("build", .directory entries)] }

theorem at?_twice (entries : Directory) :
    (twice entries).at? ["src", "routes"] = some (.directory entries) ∧
      (twice entries).at? ["build"] = some (.directory entries) := ⟨rfl, rfl⟩

theorem named_twice {directory : String} {file : Entry} (hd : IsEntryName directory)
    (hf : file.Built IsEntryName fun _ => True) : (twice (projectWith directory file)).Named := by
  have hproject : Entry.Built IsEntryName (fun _ => True) (.directory (projectWith directory file)) :=
    .single (by decide) (.single (by decide) (.single hd (.single (by decide) hf)))
  exact .cons (by simp) (by decide) (.single (by decide) hproject) (.single (by decide) hproject)

/-- A project is the same tree in both places, if what it has is a file. -/
theorem sameTree_twice (directory : String) (content : ByteArray) :
    (twice (projectWith directory (.file content))).SameTree ["src", "routes"]
      (twice (projectWith directory (.file content))) ["build"] := by
  refine sameTree_of_entries (at?_twice _).1 (at?_twice _).2 fun below target hlink => ?_
  have hbuilt : Entry.Built (fun _ => True) (fun _ => False)
      (.directory (projectWith directory (.file content))) :=
    .single trivial (.single trivial (.single trivial (.single trivial (.file content))))
  cases below with
  | nil => cases hlink
  | cons n rest =>
    cases (hbuilt.at? ((Entry.at?_directory (List.cons_ne_nil n rest) _ none).trans hlink)).1 with
    | link h => exact h.elim

/-- A project that can be moved. -/
def plainProject : FileTree :=
  twice (projectWith "x" (.file handlerSource.toUTF8))

/-- In a place that the routes marker names and in an ignored directory the routes are the same. -/
theorem routeMap_relocated_plain :
    plainProject.Named ∧ plainProject.SameTree ["src", "routes"] plainProject ["build"] ∧
    result (routeMap plainProject {} (.ofText "/src/routes")) {} =
      .ok [("/src/routes/src/routes/x/+server.ts", [(.get, handlerRoute "/x")])] ∧
    result (routeMap plainProject {} (.ofText "/build")) {} =
      .ok [("/build/src/routes/x/+server.ts", [(.get, handlerRoute "/x")])] ∧
    (journal (routeMap plainProject {} (.ofText "/src/routes")) {}).metrics.counts =
      (journal (routeMap plainProject {} (.ofText "/build")) {}).metrics.counts := by
  have ht : plainProject.Named := named_twice (by decide) (.file _)
  have hsame : plainProject.SameTree ["src", "routes"] plainProject ["build"] := sameTree_twice _ _
  have hfind : find plainProject (.ofText "/src/routes") ({} : Settings).routeFileMarker
      ({} : Settings).ignoredDirs = .ok ["/src/routes/src/routes/x/+server.ts"] := by cbv
  have hfind' : find plainProject (.ofText "/build") ({} : Settings).routeFileMarker
      ({} : Settings).ignoredDirs = .ok ["/build/src/routes/x/+server.ts"] := by cbv
  have hmap : outcome (routeMap plainProject {} (.ofText "/src/routes")) =
      .ok [("/src/routes/src/routes/x/+server.ts", [(.get, handlerRoute "/x")])] :=
    outcome_routeMap_handler hfind (by cbv) (by decide +kernel)
  have hmap' : outcome (routeMap plainProject {} (.ofText "/build")) =
      .ok [("/build/src/routes/x/+server.ts", [(.get, handlerRoute "/x")])] :=
    outcome_routeMap_handler hfind' (by cbv) (by decide +kernel)
  have hmarker : Location.markerNames ({} : Settings).routesRootMarker = ["src", "routes"] := by cbv
  have hroutes : ∀ files, find plainProject (.ofText "/src/routes") ({} : Settings).routeFileMarker
      ({} : Settings).ignoredDirs = .ok files → ∀ below : Place, (∀ name ∈ below, IsEntryName name) →
        Place.text (["src", "routes"] ++ below) ∈ files →
          Location.HasRoot ({} : Settings).routesRootMarker below := by
    intro files hfiles below hnames hmem
    rw [hfind] at hfiles
    cases hfiles
    have hplace : ["src", "routes"] ++ below = ["src", "routes", "src", "routes", "x", "+server.ts"] := by
      refine FilePath.placeText_inj (List.forall_mem_append.2 ⟨by decide, ?_⟩) (by decide)
        (List.mem_singleton.1 hmem)
      exact fun name hname => (hnames name hname).toIsPart
    obtain rfl : below = ["src", "routes", "x", "+server.ts"] := List.append_cancel_left hplace
    have hroot : Location.HasRoot ({} : Settings).routesRootMarker
        ([] ++ (Location.markerNames ({} : Settings).routesRootMarker ++ ["x", "+server.ts"])) :=
      .of_names [] (by rw [hmarker]; decide) (by decide)
    rwa [hmarker] at hroot
  have hroot : plainProject.placeOf (.ofText "/src/routes") = .ok ["src", "routes"] := by cbv
  have hroot' : plainProject.placeOf (.ofText "/build") = .ok ["build"] := by cbv
  obtain ⟨e, -, he, -⟩ | ⟨entries, -, -, hcounts⟩ :=
    routeMap_relocated ht ht hroot hroot' hsame hroutes {}
  · rw [show result _ {} = _ from hmap] at he
    cases he
  · exact ⟨ht, hsame, hmap, hmap', hcounts⟩

/-- A project with a directory whose name, once its backslashes separate, leads back in front of the
    routes root. -/
def backslashProject : FileTree :=
  twice (projectWith "x\\..\\..\\..\\y" (.file handlerSource.toUTF8))

/-- A project whose file is a link to what stands beside one of its two places only. -/
def linkedProject : FileTree :=
  { root := ("shared.ts", .file handlerSource.toUTF8) ::
      (twice (projectWith "x" (.link "../../../../shared.ts"))).root }

/-- **Not every project can be moved.**  The routes root can be lost where a backslash separates, and then
    the whole path is the route, with the place of the project in it.  And a link out of the project can
    lead to a file from one place, and nowhere from the other one. -/
theorem moved_otherwise :
    (backslashProject.Named ∧
      backslashProject.at? ["src", "routes"] = backslashProject.at? ["build"] ∧
      Location.LiesBehind (Location.markerNames "src/routes")
        ["src", "routes", "x\\..\\..\\..\\y", "+server.ts"] ["x\\..\\..\\..\\y", "+server.ts"] ∧
      result (routeMap backslashProject {} (.ofText "/src/routes")) {} =
        .ok [(Place.text (["src", "routes"] ++ ["src", "routes", "x\\..\\..\\..\\y", "+server.ts"]),
          [(.get, handlerRoute "/y")])] ∧
      result (routeMap backslashProject {} (.ofText "/build")) {} =
        .ok [(Place.text (["build"] ++ ["src", "routes", "x\\..\\..\\..\\y", "+server.ts"]),
          [(.get, handlerRoute "/build/y")])] ∧
      handlerRoute "/y" ≠ handlerRoute "/build/y") ∧
    linkedProject.Named ∧
      linkedProject.at? ["src", "routes"] = linkedProject.at? ["build"] ∧
      Location.LiesBehind (Location.markerNames "src/routes") ["src", "routes", "x", "+server.ts"]
        ["x", "+server.ts"] ∧
      result (routeMap linkedProject {} (.ofText "/src/routes")) {} =
        .error (.scan (.unreadable "/src/routes/src/routes/x/+server.ts")) ∧
      result (routeMap linkedProject {} (.ofText "/build")) {} =
        .ok [("/build/src/routes/x/+server.ts", [(.get, handlerRoute "/x")])] := by
  have hmarker : Location.markerNames "src/routes" = ["src", "routes"] := by cbv
  rw [hmarker]
  refine ⟨⟨named_twice (by decide) (.file _), rfl, .of_notMem (by decide) [], ?_, ?_, by decide⟩,
    ?_, rfl, .of_notMem (by decide) [], ?_, ?_⟩
  · exact outcome_routeMap_handler (by cbv) (by cbv) (by decide +kernel)
  · exact outcome_routeMap_handler (by cbv) (by cbv) (by decide +kernel)
  · exact .cons (by decide) (by decide) (.file _) (named_twice (by decide) (.link trivial))
  · have hfind : find linkedProject (.ofText "/src/routes") ({} : Settings).routeFileMarker
        ({} : Settings).ignoredDirs = .ok ["/src/routes/src/routes/x/+server.ts"] := by cbv
    have hread : linkedProject.read (.ofText "/src/routes/src/routes/x/+server.ts") = .error .missing := by
      cbv
    show outcome _ = _
    rw [outcome_routeMap_single hfind, outcome_analyze, outcome_readFile_unreadable]
    · rfl
    · rintro source ⟨bytes, hbytes, -⟩
      rw [hread] at hbytes
      cases hbytes
  · exact outcome_routeMap_handler (by cbv) (by cbv) (by decide +kernel)

end Scan

end RouteAtlas
