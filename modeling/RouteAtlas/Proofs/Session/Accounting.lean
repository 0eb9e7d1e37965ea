/-
  RouteAtlas: the scans of a session are counted.

  A session counts each scan that it starts, the completed ones and those that fail with an error of the
  scan.  A failure of another kind goes past the count: it is passed on, and neither count changes.

  * `Tally.counting` is a tally with the results of some scans counted;
  * `rebuild_tally` and `serve_tally`: what a rebuild and a request count, and `afterAll_tally` what some
    steps do;
  * `scans_accounted`: a session counts all scans but those that fail with a method that no route has.
-/
import RouteAtlas.Proofs.Scan.Silent
import RouteAtlas.Proofs.Scan.Unroutable
import RouteAtlas.Proofs.Session.LastGood

namespace RouteAtlas

open RouteAtlas.Recording RouteAtlas.Work

/-! ## Tallies -/

/-- A scan completed. -/
def isCompleted : Except Failure RouteMap → Bool
  | .ok _ => true
  | .error _ => false

/-- A scan failed with an error of the scan. -/
def isScanError : Except Failure RouteMap → Bool
  | .error (.scan _) => true
  | _ => false

/-- A tally with the results of some scans counted: each of them adds one to one of both counts, or
    nothing if it is a failure of another kind. -/
def Tally.counting (t : Tally) (results : List (Except Failure RouteMap)) : Tally :=
  ⟨t.completed + results.countP isCompleted, t.failed + results.countP isScanError⟩

@[simp] theorem Tally.counting_nil (t : Tally) : t.counting [] = t := rfl

theorem Tally.counting_append (t : Tally) (results later : List (Except Failure RouteMap)) :
    t.counting (results ++ later) = (t.counting results).counting later := by
  simp [counting, List.countP_append, Nat.add_assoc]

/-- Where all failures are errors of the scan, every scan is counted once. -/
theorem Tally.counting_total (t : Tally) {results : List (Except Failure RouteMap)}
    (h : ∀ f, .error f ∈ results → ∃ e, f = .scan e) :
    (t.counting results).completed + (t.counting results).failed =
      t.completed + t.failed + results.length := by
  have hfailed : results.countP isScanError = results.countP fun r => decide ¬ isCompleted r = true := by
    refine List.countP_congr fun r hr => ?_
    cases r with
    | ok map => simp [isScanError, isCompleted]
    | error f =>
      obtain ⟨e, rfl⟩ := h f hr
      simp [isScanError, isCompleted]
  have hlength := List.length_eq_countP_add_countP isCompleted (l := results)
  simp only [counting, hfailed]
  omega

theorem Metrics.tally_countScan (m : Metrics) (failed : Bool) :
    (m.countScan failed).tally =
      if failed then ⟨m.tally.completed, m.tally.failed + 1⟩
      else ⟨m.tally.completed + 1, m.tally.failed⟩ := by
  cases failed <;> rfl

/-! ## Requests -/

namespace Service

/-- The scans that a service has counted. -/
def tally (s : Service) : Tally :=
  s.journal.metrics.tally

/-- Two services have counted the same scans. -/
def CountsSame (s s' : Service) : Prop :=
  s'.tally = s.tally

instance : IsPreorder Service CountsSame where
  refl _ := rfl
  trans _ _ _ h h' := h'.trans h

theorem keeps_recording {α : Type} {work : Recording α} (h : Keeps SameTally work) :
    Keeps CountsSame (recording work) :=
  fun s => h s.journal

theorem keeps_changing {α : Type} (work : Change α) : Keeps CountsSame (changing work) :=
  fun _ => rfl

/-- **A rebuild counts its scan**, unless that fails with something else than an error of the scan. -/
theorem rebuild_tally (s : Service) :
    (Session.rebuild.run.run s).2.tally = s.tally.counting [s.scan] := by
  have hscan : result (Scan.routeMap s.tree s.session.settings s.session.root) s.journal = s.scan :=
    Scan.steady_routeMap.result_eq s.journal
  have hsilent : (Recording.journal (Scan.routeMap s.tree s.session.settings s.session.root)
      s.journal).metrics.tally = s.tally :=
    Scan.keeps_routeMap s.tree s.session.settings s.session.root s.journal
  unfold Session.rebuild
  rw [run_bind, run_get]
  simp only
  rw [run_bind, run_tryCatch, run_recording, hscan, ← hsilent]
  cases s.scan with
  | ok map => exact Metrics.tally_countScan _ false
  | error f =>
    cases f with
    | scan e => exact Metrics.tally_countScan _ true
    | unknownMethod m => rfl
    | tree e => rfl

/-- A request for the map counts the scan that it starts. -/
theorem routes_tally (s : Service) :
    (Session.routes.run.run s).2.tally = s.tally.counting (s.scansFor .routes) := by
  cases hc : s.session.cached with
  | some map =>
    have hnot : Request.routes.scans s.session = false := by simp [Request.scans, hc]
    rw [Session.routes_cached hc, scansFor_of_not hnot, Tally.counting_nil]
  | none =>
    have hscans : Request.routes.scans s.session = true := by simp [Request.scans, hc]
    rw [Session.routes_uncached hc, scansFor_of_scans hscans]
    exact rebuild_tally s

/-- A change of a file counts the scan that it starts; the entry in the log before it counts nothing. -/
theorem fileChanged_tally (s : Service) (file : String) :
    ((Session.fileChanged file).run.run s).2.tally = s.tally.counting (s.scansFor (.fileChanged file)) := by
  cases hh : s.session.handles file with
  | false =>
    have hnot : (Request.fileChanged file).scans s.session = false := hh
    rw [Session.fileChanged_passed hh, scansFor_of_not hnot, Tally.counting_nil]
  | true =>
    have hscans : (Request.fileChanged file).scans s.session = true := hh
    rw [scansFor_of_scans hscans]
    unfold Session.fileChanged
    rw [run_bind, run_get]
    simp only [hh, if_true]
    rw [run_bind, run_recording]
    exact (congrArg (fun r : _ × Service => r.2.tally) (run_map _ some _)).trans (rebuild_tally _)

/-- The artifact counts the scan for the map; what is behind it counts nothing. -/
theorem writeArtifact_tally (s : Service) (path : FilePath) :
    ((Session.writeArtifact path).run.run s).2.tally = (Session.routes.run.run s).2.tally := by
  unfold Session.writeArtifact
  rw [run_bind]
  rcases Session.routes.run.run s with ⟨r, s'⟩
  cases r with
  | error e => rfl
  | ok map =>
    have hrest : Keeps CountsSame (do
        changing (FileTree.deliver path (RouteMap.text map).toUTF8)
        recording (logged .info ("Wrote route map to " ++ path.text))
        return path) :=
      (keeps_changing _).bind fun _ => (keeps_recording (keeps_logged _ _)).bind fun _ => keeps_pure _
    exact hrest s'

/-- **One request counts the scans that it starts.** -/
theorem serve_tally (s : Service) (r : Request) :
    (r.serve.run.run s).2.tally = s.tally.counting (s.scansFor r) := by
  cases r with
  | rebuild =>
    unfold Request.serve
    rw [run_map]
    exact rebuild_tally s
  | routes =>
    unfold Request.serve
    rw [run_map]
    exact routes_tally s
  | fileChanged file =>
    unfold Request.serve
    rw [run_map]
    exact fileChanged_tally s file
  | handles file =>
    unfold Request.serve
    rw [run_map]
    rfl
  | writeArtifact path =>
    unfold Request.serve
    rw [run_map]
    exact (writeArtifact_tally s path).trans (routes_tally s)

/-! ## Sequences of steps -/

theorem after_tally (s : Service) (step : Step) :
    (s.after step).tally = s.tally.counting (s.scansAt step) := by
  cases step with
  | request r => exact serve_tally s r
  | change tree => rfl

/-- **Some steps count the scans that they start.** -/
theorem afterAll_tally (s : Service) (steps : List Step) :
    (s.afterAll steps).tally = s.tally.counting (s.scansOver steps) := by
  induction steps generalizing s with
  | nil => rfl
  | cons step steps ih =>
    show ((s.after step).afterAll steps).tally = _
    rw [ih, after_tally, ← Tally.counting_append]
    rfl

/-- All scans are of the same root, with the same settings. -/
theorem mem_scansOver {s : Service} {steps : List Step} {r : Except Failure RouteMap}
    (h : r ∈ s.scansOver steps) :
    ∃ t : FileTree, r = outcome (Scan.routeMap t s.session.settings s.session.root) := by
  induction steps generalizing s with
  | nil => exact absurd h List.not_mem_nil
  | cons step steps ih =>
    obtain h | h := List.mem_append.1 h
    · refine ⟨s.tree, ?_⟩
      cases step with
      | change tree => exact absurd h List.not_mem_nil
      | request req =>
        change r ∈ s.scansFor req at h
        cases hreq : req.scans s.session with
        | true =>
          rw [scansFor_of_scans hreq] at h
          exact List.mem_singleton.1 h
        | false =>
          rw [scansFor_of_not hreq] at h
          exact absurd h List.not_mem_nil
    · obtain ⟨t, ht⟩ := ih h
      rw [after_session] at ht
      exact ⟨t, ht⟩

end Service

open Service

/-- **The scans of a session are counted.**  After any requests, with the tree changed in any way between
    them, each scan that was started has added one to one of both counts: to the completed ones if it gave
    a map, to the failed ones if it failed with an error of the scan.  Other scans fail with a method that
    no route has, and add nothing.  If routes can have all configured methods there are none of these, and
    the counts grow by the number of scans.  A scan is of these exactly if the first file that fails has a
    handler of a configured method that no route has, at a place that is known. -/
theorem scans_accounted (s : Service) (steps : List Step) :
    (s.afterAll steps).tally = s.tally.counting (s.scansOver steps) ∧
    (∀ f, .error f ∈ s.scansOver steps → (∃ e, f = .scan e) ∨ ∃ m, f = .unknownMethod m) ∧
    ((∀ word ∈ s.session.settings.methods, (Method.ofWord? word).isSome) →
      (∀ f, .error f ∈ s.scansOver steps → ∃ e, f = .scan e) ∧
      (s.afterAll steps).tally.completed + (s.afterAll steps).tally.failed =
        s.tally.completed + s.tally.failed + (s.scansOver steps).length) ∧
    ∀ m, s.scan = .error (.unknownMethod m) ↔
      ∃ before file after,
        Discovery.find s.tree s.session.root s.session.settings.routeFileMarker
          s.session.settings.ignoredDirs = .ok (before ++ file :: after) ∧
        (∀ g ∈ before, ∃ table, outcome (Analysis.analyze s.tree s.session.settings g) = .ok table) ∧
        Analysis.Unroutable s.tree s.session.settings file m := by
  have htally := afterAll_tally s steps
  have hfails : ∀ f, .error f ∈ s.scansOver steps →
      (∃ e, f = .scan e) ∨ ∃ m, f = .unknownMethod m := by
    intro f hf
    obtain ⟨t, ht⟩ := mem_scansOver hf
    exact Scan.routeMap_fails ht.symm
  refine ⟨htally, hfails, fun hm => ?_, fun m => Scan.routeMap_unknownMethod_iff m⟩
  have herrors : ∀ f, .error f ∈ s.scansOver steps → ∃ e, f = .scan e := by
    intro f hf
    obtain he | ⟨m, rfl⟩ := hfails f hf
    · exact he
    · obtain ⟨t, ht⟩ := mem_scansOver hf
      obtain ⟨-, file, -, -, -, root, path, -, -, hun⟩ := (Scan.routeMap_unknownMethod_iff m).1 ht.symm
      rw [Analysis.unroutable?_none root hm] at hun
      cases hun
  exact ⟨herrors, htally ▸ Tally.counting_total s.tally herrors⟩

/-- A module that handles a method which no route has. -/
def patchSource : String := "export function PATCH()\x7b\x7d"

/-- A project with this module only, in which the method is configured. -/
def patchProject : Service :=
  { tree := { root := [("src", .directory [("a+server.ts", .file patchSource.toUTF8)])] }
    session := { root := .ofText "/src", settings := { methods := ["PATCH"] } } }

theorem unroutable_patchProject :
    Analysis.Unroutable patchProject.tree patchProject.session.settings "/src/a+server.ts" "PATCH" := by
  obtain ⟨root, hroot, hun⟩ : ∃ root ∈ (Code.readModule (Code.Dialect.ofFile "/src/a+server.ts")
      patchSource).toOption, Analysis.unroutable? patchProject.session.settings root = some "PATCH" := by
    decide +kernel
  have hread : patchProject.tree.read (.ofText "/src/a+server.ts") = .ok patchSource.toUTF8 := by cbv
  have hdecoded : Text.decoded patchSource.toUTF8 = some patchSource := by decide +kernel
  exact ⟨root, "/src/a+server.ts", Analysis.outcome_readFile_of_module ⟨_, hread, hdecoded⟩ hroot,
    by cbv, hun⟩

/-- The rebuild of the project fails and is not counted.  Without the files it fails for want of a root,
    and this is counted. -/
theorem scans_accounted_patch :
    patchProject.scansOver [.request .rebuild, .change {}, .request .rebuild] =
      [.error (.unknownMethod "PATCH"), .error (.scan (.noRoot (.missing "/src")))] ∧
    (patchProject.afterAll [.request .rebuild, .change {}, .request .rebuild]).tally = ⟨0, 1⟩ ∧
    (emptyProject.afterAll [.request .rebuild]).tally.completed +
      (emptyProject.afterAll [.request .rebuild]).tally.failed = 1 := by
  obtain ⟨htally, -, -, hunknown⟩ :=
    scans_accounted patchProject [.request .rebuild, .change {}, .request .rebuild]
  obtain ⟨-, -, htotal, -⟩ := scans_accounted emptyProject [.request .rebuild]
  have hfind : Discovery.find patchProject.tree patchProject.session.root
      patchProject.session.settings.routeFileMarker patchProject.session.settings.ignoredDirs =
        .ok ["/src/a+server.ts"] := by cbv
  have hscan : patchProject.scan = .error (.unknownMethod "PATCH") :=
    (hunknown "PATCH").2 ⟨[], _, [], hfind, by simp, unroutable_patchProject⟩
  have hscans : patchProject.scansOver [.request .rebuild, .change {}, .request .rebuild] =
      [.error (.unknownMethod "PATCH"), .error (.scan (.noRoot (.missing "/src")))] := by
    obtain ⟨journal, hserve⟩ := serve_error (r := .rebuild) rfl hscan
    have hafter : patchProject.after (.request .rebuild) = { patchProject with journal } :=
      congrArg Prod.snd hserve
    show [patchProject.scan] ++ ([] ++ ([((patchProject.after (.request .rebuild)).after
      (.change {})).scan] ++ [])) = _
    rw [hafter, hscan]
    have hremoved : Service.scan { patchProject with journal, tree := {} } =
        .error (.scan (.noRoot (.missing "/src"))) := by cbv
    exact congrArg (fun r => [.error (.unknownMethod "PATCH"), r]) hremoved
  rw [hscans] at htally
  exact ⟨hscans, htally, (htotal (by decide)).2⟩

end RouteAtlas
