/-
  RouteAtlas: what a run of the command comes to.

  A run scans once, and then gives the text of the map out or puts it into a file.

  * `Arguments.scan` is what the scan of a command line results in; command lines with the same root, and
    as strict, have the same scan, however many workers they ask for (`scan_congr`);
  * `deliver_error`, `deliver_given` and `deliver_written`: what becomes of the map of a session;
  * `run_failed`, `run_given` and `run_written`: the ends of a run;
  * `run_agrees`: every accepted command line comes to one of these ends, whose text is that of one map.
-/
import RouteAtlas.CommandLine.Run
import RouteAtlas.Proofs.Scan.Together
import RouteAtlas.Proofs.Session.Artifact

namespace RouteAtlas.CommandLine

open RouteAtlas.Recording RouteAtlas.Work RouteAtlas.Service RouteAtlas.FileTree

/-! ## Scans -/

/-- What the scan of a command line results in. -/
def Arguments.scan (a : Arguments) (settings : Settings) (t : FileTree) : Except Failure RouteMap :=
  outcome (Scan.routeMap t (a.session settings).settings (a.session settings).root)

variable {settings : Settings} {t : FileTree} {a : Arguments}

/-- The number of workers has no part in a scan. -/
theorem outcome_routeMap_workers (settings : Settings) (root : FilePath) (workers : Int) :
    outcome (Scan.routeMap t { settings with scanWorkers := workers } root) =
      outcome (Scan.routeMap t settings root) := by
  rw [Scan.outcome_routeMap, Scan.outcome_routeMap]
  rfl

/-- **Command lines with the same root, and as strict, have the same scan.** -/
theorem scan_congr {b : Arguments} (hroot : b.root = a.root)
    (hstrict : b.strictRoutesRoot = a.strictRoutesRoot) : b.scan settings t = a.scan settings t := by
  unfold Arguments.scan Arguments.session
  rw [hroot, hstrict]
  let strict : Settings := { settings with strictRoutesRoot := a.strictRoutesRoot }
  exact (outcome_routeMap_workers strict _ _).trans (outcome_routeMap_workers strict _ _).symm

/-! ## Deliveries -/

section
variable {s s' : Service}

/-- Without a map nothing is delivered. -/
theorem deliver_error {f : Failure} (h : Session.routes.run.run s = (.error f, s'))
    (output : Option String) : (deliver output).run.run s = (.error f, s') := by
  cases output with
  | none =>
    unfold deliver
    rw [run_bind, h]
  | some file =>
    unfold deliver
    rw [run_bind, Session.writeArtifact_error h]

/-- Without a file for it the text of the map is given out, on a line of its own. -/
theorem deliver_given {map : RouteMap} (h : Session.routes.run.run s = (.ok map, s')) :
    (deliver none).run.run s = (.ok (RouteMap.text map ++ "\n"), s') := by
  unfold deliver
  rw [run_bind, h]
  rfl

/-- With a file for it the text of the map is put there, if this succeeds. -/
theorem deliver_written {map : RouteMap} {file : String} {journal : Journal} {session : Session}
    (h : Session.routes.run.run s = (.ok map, { s with journal, session }))
    (hok : ((FileTree.deliver (.ofText file) (RouteMap.text map).toUTF8).run.run s.tree).1 = .ok ()) :
    ∃ journal, (deliver (some file)).run.run s = (.ok "",
      { tree := ((FileTree.deliver (.ofText file) (RouteMap.text map).toUTF8).run.run s.tree).2
        journal, session }) := by
  obtain ⟨journal, hrun⟩ := Session.writeArtifact_run h (.ofText file)
  refine ⟨journal, ?_⟩
  unfold deliver
  rw [run_bind, hrun, hok]
  rfl

/-- The result of work can be taken as one that is no failure. -/
theorem run_ok_map (work : Serving String) (s : Service) :
    (Except.ok <$> work : Serving (Except ScanError String)).run.run s =
      ((work.run.run s).1.map Except.ok, (work.run.run s).2) := by
  rw [map_eq_pure_bind]
  exact run_map work Except.ok s

/-- A scan that fails is reported, and ends the run with the status 1. -/
theorem work_error {output : Option String} {e : ScanError}
    (h : (deliver output).run.run s = (.error (.scan e), s')) :
    ∃ journal, (work output).run.run s = (.ok ⟨1, some ""⟩, { s' with journal }) := by
  unfold work
  rw [run_bind, run_tryCatch, run_ok_map, h]
  exact ⟨_, rfl⟩

/-- What is delivered ends the run with the status 0. -/
theorem work_ok {output : Option String} {text : String}
    (h : (deliver output).run.run s = (.ok text, s')) :
    ∃ journal, (work output).run.run s = (.ok ⟨0, some text⟩, { s' with journal }) := by
  unfold work
  rw [run_bind, run_tryCatch, run_ok_map, h]
  exact ⟨_, rfl⟩

end

/-! ## Runs -/

/-- The session of a command line holds no map at first, and so its map is that of a scan. -/
theorem routes_session (a : Arguments) (settings : Settings) (s : Service) : ∃ journal session,
    Session.routes.run.run { s with session := a.session settings } =
      (a.scan settings s.tree, { s with journal, session }) := by
  obtain ⟨journal, hrebuild⟩ := Session.rebuild_run { s with session := a.session settings }
  exact ⟨journal, _, (Session.routes_uncached rfl).trans hrebuild⟩

/-- A file can be delivered at a path, whatever is in it, and relative paths start at a directory. -/
structure Writable (t : FileTree) (path : FilePath) : Prop where
  standing : t.Standing
  delivers : ∀ content, ((FileTree.deliver path content).run.run t).1 = .ok ()

section
variable {s : Service} {arguments : List String} (ha : Arguments.read settings arguments = .ok a)
include ha

/-- An accepted command line does its work in a session of its own. -/
theorem run_accepted {exit : Exit} {s' : Service}
    (h : (work a.output).run.run { s with session := a.session settings } = (.ok exit, s')) :
    (run settings arguments).run.run s = (.ok exit, { s' with session := s.session }) := by
  unfold run
  rw [ha]
  show (((work a.output).run.run { s with session := a.session settings }).1,
    { ((work a.output).run.run { s with session := a.session settings }).2 with session := s.session }) = _
  rw [h]

/-- A scan that fails ends the run with the status 1.  Nothing is given out, and nothing changes. -/
theorem run_failed {e : ScanError} (hscan : a.scan settings s.tree = .error (.scan e)) :
    ∃ journal, (run settings arguments).run.run s = (.ok ⟨1, some ""⟩, { s with journal }) := by
  obtain ⟨_, session, hroutes⟩ := routes_session a settings s
  rw [hscan] at hroutes
  obtain ⟨journal, hwork⟩ := work_error (deliver_error hroutes a.output)
  exact ⟨journal, run_accepted ha hwork⟩

/-- Without a file for it the text of the map is given out, on a line of its own. -/
theorem run_given {map : RouteMap} (hscan : a.scan settings s.tree = .ok map) (hout : a.output = none) :
    ∃ journal, (run settings arguments).run.run s =
      (.ok ⟨0, some (RouteMap.text map ++ "\n")⟩, { s with journal }) := by
  obtain ⟨_, session, hroutes⟩ := routes_session a settings s
  rw [hscan] at hroutes
  obtain ⟨journal, hwork⟩ := work_ok (deliver_given hroutes)
  exact ⟨journal, run_accepted ha (hout ▸ hwork)⟩

/-- With a file for it the text of the map is put there, if this succeeds. -/
theorem run_written {map : RouteMap} {file : String} (hscan : a.scan settings s.tree = .ok map)
    (hout : a.output = some file)
    (hok : ((FileTree.deliver (.ofText file) (RouteMap.text map).toUTF8).run.run s.tree).1 = .ok ()) :
    ∃ journal, (run settings arguments).run.run s = (.ok ⟨0, some ""⟩,
      { s with
        tree := ((FileTree.deliver (.ofText file) (RouteMap.text map).toUTF8).run.run s.tree).2
        journal }) := by
  obtain ⟨_, session, hroutes⟩ := routes_session a settings s
  rw [hscan] at hroutes
  obtain ⟨_, hdelivered⟩ := deliver_written hroutes hok
  obtain ⟨journal, hwork⟩ := work_ok hdelivered
  exact ⟨journal, run_accepted ha (hout ▸ hwork)⟩

end

/-- **All runs agree**, for every tree and every accepted command line, with any root and any number of
    workers, strict or not.  Let its scan fail with nothing but errors of scans, and its output, if it has
    one, be writable.  The run ends with 1 exactly if the scan fails, and then nothing is given out and
    nothing in the tree changes.  Otherwise it ends with 0.  With an output it puts the text of the map
    there and gives nothing out; without one it gives out this text and the end of a line, and changes
    nothing.  The map is that of every other accepted command line with the same root that is as strict,
    whatever its output and its number of workers are, and in whatever order workers complete the files. -/
theorem run_agrees (settings : Settings) (arguments : List String) (a : Arguments) (s : Service)
    (ha : Arguments.read settings arguments = .ok a)
    (hscan : ∀ f, a.scan settings s.tree = .error f → ∃ e, f = .scan e)
    (hout : ∀ file, a.output = some file → Writable s.tree (.ofText file)) :
    (∃ exit s', (run settings arguments).run.run s = (.ok exit, s') ∧
      (exit.status = 1 ↔ ∃ f, a.scan settings s.tree = .error f) ∧
      (exit.status = 1 → exit.output = some "" ∧ s'.tree = s.tree) ∧
      (exit.status ≠ 1 → exit.status = 0 ∧ ∃ map, a.scan settings s.tree = .ok map ∧
        (a.output = none → exit.output = some (RouteMap.text map ++ "\n") ∧ s'.tree = s.tree) ∧
        ∀ file, a.output = some file → exit.output = some "" ∧ ∃ made place,
          Delivered (.ofText file) (RouteMap.text map).toUTF8 s.tree made s'.tree place)) ∧
    (∀ others b, Arguments.read settings others = .ok b → b.root = a.root →
      b.strictRoutesRoot = a.strictRoutesRoot → b.scan settings s.tree = a.scan settings s.tree) ∧
    ∀ files completed, Discovery.find s.tree (a.session settings).root settings.routeFileMarker
        settings.ignoredDirs = .ok files → completed.Perm files →
      ∀ map, outcome (Scan.together s.tree (a.session settings).settings files completed) = .ok map ↔
        a.scan settings s.tree = .ok map := by
  refine ⟨?_, fun others b _ => scan_congr, fun files completed hfind hperm map => ?_⟩
  · cases hresult : a.scan settings s.tree with
    | error f =>
      obtain ⟨e, rfl⟩ := hscan f hresult
      obtain ⟨journal, hrun⟩ := run_failed ha hresult
      exact ⟨_, _, hrun, by simp, fun _ => ⟨rfl, rfl⟩, fun h => absurd rfl h⟩
    | ok map =>
      cases hoption : a.output with
      | none =>
        obtain ⟨journal, hrun⟩ := run_given ha hresult hoption
        refine ⟨_, _, hrun, by simp, fun h => (nomatch h), fun _ => ⟨rfl, map, rfl, fun _ => ⟨rfl, rfl⟩, ?_⟩⟩
        exact fun file h => (nomatch h)
      | some file =>
        have hok := (hout file hoption).delivers (RouteMap.text map).toUTF8
        obtain ⟨journal, hrun⟩ := run_written ha hresult hoption hok
        refine ⟨_, _, hrun, by simp, fun h => (nomatch h), fun _ => ⟨rfl, map, rfl, fun h => (nomatch h), ?_⟩⟩
        rintro _ ⟨⟩
        obtain ⟨made, place, hdelivered, -⟩ | ⟨-, e, he⟩ :=
          deliver_cases (hout file hoption).standing (.ofText file) (RouteMap.text map).toUTF8
        · exact ⟨rfl, made, place, hdelivered⟩
        · rw [hok] at he
          cases he
  · have hall : a.scan settings s.tree =
        outcome (Scan.together s.tree (a.session settings).settings files files) :=
      Scan.outcome_routeMap_of_find hfind
    rw [hall, Scan.outcome_together_ok_iff hperm, Scan.outcome_together_ok_iff (.refl files)]

/-- In a plain tree a file can be delivered to a new directory of the root. -/
theorem writable_new (hplain : t.Plain) (hcurrent : t.current = none) (hfree : t.at? ["out"] = none) :
    Writable t (.ofText "/out/routes.json") := by
  have hpath : FilePath.ofText "/out/routes.json" = ⟨"/", ["out", "routes.json"]⟩ := by decide
  have hspelled : Spelled ⟨"/", ["out", "routes.json"]⟩ := ⟨rfl, by decide⟩
  have hs : t.Standing := fun place h => by rw [hcurrent] at h; cases h
  have hbelow : t.at? ["out", "routes.json"] = none :=
    (Directory.at?_append t.root ["out"] ["routes.json"]).trans (congrArg (Option.bind · _) hfree)
  refine ⟨hs, fun content => ?_⟩
  rw [hpath]
  cases hr : ((FileTree.deliver ⟨"/", ["out", "routes.json"]⟩ content).run.run t).1 with
  | ok => rfl
  | error e =>
    obtain ⟨above, _, habove, -, hfile⟩ | ⟨_, _, hd⟩ :=
      (deliver_fails_iff hplain hs hspelled content).1 ⟨e, hr⟩
    · have hinits := (List.mem_inits above ["out", "routes.json"]).2 habove
      fin_cases hinits
      · cases hfile
      · rw [hfree] at hfile; cases hfile
      · rw [hbelow] at hfile; cases hfile
    · rw [hbelow] at hd; cases hd

theorem plain_handlersProject : Scan.handlersProject.Plain := by
  have hnames : ∀ name ∈ ["src", "routes", "a", "b", "+server.ts"], IsEntryName name := by decide
  simp only [List.forall_mem_cons] at hnames
  simp [FileTree.Plain, Scan.handlersProject, Scan.pairProject, Scan.pairEntries,
    Entry.Plain.directory_iff, Entry.Plain.file, hnames]

/-- The text of the map of two files with the same handler. -/
def pairText : String :=
  "\n".intercalate
    ["\x7b",
      "  \"/src/routes/a/+server.ts\": \x7b",
      "    \"GET\": \x7b",
      "      \"method\": \"GET\",",
      "      \"declaredType\": \"() => void\",",
      "      \"returnType\": \"any\",",
      "      \"queryParameters\": [],",
      "      \"urls\": [",
      "        \"/a\"",
      "      ],",
      "      \"path\": \"/a\"",
      "    \x7d",
      "  \x7d,",
      "  \"/src/routes/b/+server.ts\": \x7b",
      "    \"GET\": \x7b",
      "      \"method\": \"GET\",",
      "      \"declaredType\": \"() => void\",",
      "      \"returnType\": \"any\",",
      "      \"queryParameters\": [],",
      "      \"urls\": [",
      "        \"/b\"",
      "      ],",
      "      \"path\": \"/b\"",
      "    \x7d",
      "  \x7d",
      "\x7d"]

theorem text_pairMap : RouteMap.text Scan.pairMap = pairText := by
  decide +kernel

/-- A service that has a project with two route files. -/
def handlersService : Service :=
  { tree := Scan.handlersProject, session := { root := .ofText "/src" } }

/-- Runs with no workers and with several give the same text out and put it into a file, with the files
    in their order; workers may complete them the other way round.  A run without a root fails. -/
theorem run_agrees_handlers :
    (∃ exit s', (run {} ["--workers", "0", "/src"]).run.run handlersService = (.ok exit, s') ∧
      exit.status = 0 ∧ exit.output = some (pairText ++ "\n") ∧ s'.tree = handlersService.tree) ∧
    (∃ exit s',
      (run {} ["--output", "/out/routes.json", "--workers=3", "/src"]).run.run handlersService =
        (.ok exit, s') ∧
      exit.status = 0 ∧ exit.output = some "" ∧
      s'.tree.read (.ofText "/out/routes.json") = .ok pairText.toUTF8) ∧
    outcome (Scan.together handlersService.tree { ({} : Settings) with scanWorkers := 3 }
      Scan.pairFiles Scan.pairFiles.reverse) = .ok Scan.pairMap ∧
    ∃ exit s', (run {} ["/gone"]).run.run handlersService = (.ok exit, s') ∧
      exit.status = 1 ∧ exit.output = some "" ∧ s'.tree = handlersService.tree := by
  have hshown : Arguments.read {} ["--workers", "0", "/src"] =
      .ok { root := some "/src", workers := 0, strictRoutesRoot := false } := by decide
  have hstored : Arguments.read {} ["--output", "/out/routes.json", "--workers=3", "/src"] =
      .ok { root := some "/src", output := some "/out/routes.json", workers := 3
            strictRoutesRoot := false } := by decide
  have hgone : Arguments.read {} ["/gone"] =
      .ok { root := some "/gone", workers := 1, strictRoutesRoot := false } := by decide
  have hscan : Arguments.scan { root := some "/src", workers := 0, strictRoutesRoot := false } {}
      handlersService.tree = .ok Scan.pairMap := by
    unfold Arguments.scan
    refine (Scan.outcome_routeMap_of_find Scan.find_handlersProject).trans ?_
    rw [← Scan.outcome_oneByOne_eq]
    exact Scan.outcome_oneByOne_handlers
  have hfails : Arguments.scan { root := some "/gone", workers := 1, strictRoutesRoot := false } {}
      handlersService.tree = .error (.scan (.noRoot (.missing "/gone"))) := by cbv
  -- One of the runs gives the text out, one stores it, and one has no root.
  obtain ⟨⟨_, _, hgiven, hgiven₁, -, hgiven₀⟩, hsame, -⟩ := run_agrees {} _ _ handlersService hshown
    (fun f hf => by rw [hscan] at hf; cases hf) (fun file hf => by cases hf)
  have hscan' := (hsame _ _ hstored rfl rfl).trans hscan
  obtain ⟨⟨_, _, hput, hput₁, -, hput₀⟩, -, htogether⟩ := run_agrees {} _ _ handlersService hstored
    (fun f hf => by rw [hscan'] at hf; cases hf)
    (fun file hf => Option.some.inj hf ▸ writable_new plain_handlersProject rfl rfl)
  obtain ⟨⟨_, _, hfailed, hfailed₁, hend, -⟩, -⟩ := run_agrees {} _ _ handlersService hgone
    (fun f hf => by rw [hfails] at hf; cases hf; exact ⟨_, rfl⟩) (fun file hf => by cases hf)
  rw [hscan] at hgiven₁ hgiven₀
  rw [hscan'] at hput₁ hput₀
  rw [hfails] at hfailed₁
  obtain ⟨hzero, _, ⟨⟩, htext₁, -⟩ := hgiven₀ fun h => by simpa using hgiven₁.1 h
  obtain ⟨hzero', _, ⟨⟩, -, htext₂⟩ := hput₀ fun h => by simpa using hput₁.1 h
  obtain ⟨hnothing, _, place, hdelivered⟩ := htext₂ _ rfl
  rw [text_pairMap] at htext₁ hdelivered
  have hone := hfailed₁.2 ⟨_, rfl⟩
  exact ⟨⟨_, _, hgiven, hzero, htext₁ rfl⟩,
    ⟨_, _, hput, hzero', hnothing, hdelivered.read fun _ => plain_handlersProject.not_link⟩,
    (htogether _ _ Scan.find_handlersProject (List.reverse_perm _) _).2 hscan',
    _, _, hfailed, hone, hend hone⟩

end RouteAtlas.CommandLine
