/-
  RouteAtlas: the last good map.

  * `Service.scan` is what a scan of the tree as it stands results in, and `rebuild_run` is what a
    session makes of it;
  * `Request` is what a session can be asked for, and `Service.Step` a request or a change of the tree
    from outside;
  * `Service.scansOver` are the results of the scans that a sequence of steps starts;
  * `last_good_map`: a session holds the map of the last scan that succeeded, fails with what a scan
    fails with, and answers with the map that it holds.
-/
import Mathlib
import RouteAtlas.Proofs.FileTree.Plain
import RouteAtlas.Proofs.Scan.Dependence
import RouteAtlas.Proofs.Work
import RouteAtlas.Session

namespace RouteAtlas

open RouteAtlas.Recording RouteAtlas.Work

/-! ## Work of a service -/

namespace Service

theorem run_recording {α : Type} (work : Recording α) (s : Service) : (recording work).run.run s =
    (result work s.journal, { s with journal := Recording.journal work s.journal }) := rfl

/-- Two services have the same session. -/
def SameSession (s s' : Service) : Prop :=
  s'.session = s.session

instance : IsPreorder Service SameSession where
  refl _ := rfl
  trans _ _ _ h h' := h'.trans h

/-- What a scan of the tree as it stands results in. -/
def scan (s : Service) : Except Failure RouteMap :=
  outcome (Scan.routeMap s.tree s.session.settings s.session.root)

end Service

/-! ## Maps of scans -/

/-- The map of the last scan that succeeded; the one from before if none did. -/
def lastGood (before : Option RouteMap) (scans : List (Except Failure RouteMap)) : Option RouteMap :=
  (scans.filterMap Except.toOption).getLast?.or before

theorem lastGood_append (before : Option RouteMap) (scans later : List (Except Failure RouteMap)) :
    lastGood before (scans ++ later) = lastGood (lastGood before scans) later := by
  unfold lastGood
  rw [List.filterMap_append, List.getLast?_append, Option.or_assoc]

namespace Session

open Service

/-- The session after some scans. -/
def seeing (s : Session) (scans : List (Except Failure RouteMap)) : Session :=
  { s with cached := lastGood s.cached scans }

@[simp] theorem seeing_nil (s : Session) : s.seeing [] = s := rfl

@[simp] theorem seeing_ok (s : Session) (map : RouteMap) :
    s.seeing [.ok map] = { s with cached := some map } := rfl

@[simp] theorem seeing_error (s : Session) (e : Failure) : s.seeing [.error e] = s := rfl

theorem seeing_append (s : Session) (scans later : List (Except Failure RouteMap)) :
    s.seeing (scans ++ later) = (s.seeing scans).seeing later := by
  unfold seeing
  rw [lastGood_append]

/-- A rebuild results in what the scan results in, and the session sees it. -/
theorem rebuild_run (s : Service) : ∃ journal,
    rebuild.run.run s = (s.scan, { s with journal, session := s.session.seeing [s.scan] }) := by
  have hscan : result (Scan.routeMap s.tree s.session.settings s.session.root) s.journal =
      s.scan := Scan.steady_routeMap.result_eq s.journal
  unfold rebuild
  rw [run_bind, run_get]
  simp only
  rw [run_bind, run_tryCatch, run_recording, hscan]
  cases s.scan with
  | ok map => exact ⟨_, rfl⟩
  | error e => cases e <;> exact ⟨_, rfl⟩

/-- A session that holds a map answers with it, and nothing happens. -/
theorem routes_cached {s : Service} {map : RouteMap} (h : s.session.cached = some map) :
    routes.run.run s = (.ok map, s) := by
  unfold routes
  rw [run_bind, run_get]
  simp only [h]
  rfl

/-- A session that holds no map rebuilds it. -/
theorem routes_uncached {s : Service} (h : s.session.cached = none) :
    routes.run.run s = rebuild.run.run s := by
  unfold routes
  rw [run_bind, run_get]
  simp only [h]

/-- A change of a file that is no route file is passed over. -/
theorem fileChanged_passed {s : Service} {file : String} (h : s.session.handles file = false) :
    (fileChanged file).run.run s = (.ok none, s) := by
  unfold fileChanged
  rw [run_bind, run_get]
  simp only [h]
  rfl

/-- A change of a route file starts a rebuild. -/
theorem fileChanged_handled {s : Service} {file : String} (h : s.session.handles file = true) :
    ∃ journal, (fileChanged file).run.run s =
      (s.scan.map some, { s with journal, session := s.session.seeing [s.scan] }) := by
  have hlogged : (recording (logged .info ("Route file changed: " ++ file))).run.run s =
      (.ok (), { s with journal := s.journal.write .info ("Route file changed: " ++ file) }) := rfl
  obtain ⟨journal, hrebuild⟩ : ∃ journal, rebuild.run.run
      { s with journal := s.journal.write .info ("Route file changed: " ++ file) } =
      (s.scan, { s with journal, session := s.session.seeing [s.scan] }) := rebuild_run _
  refine ⟨journal, ?_⟩
  unfold fileChanged
  rw [run_bind, run_get]
  simp only [h, if_true]
  rw [run_bind, hlogged]
  simp only
  rw [run_bind, hrebuild]
  cases s.scan <;> rfl

/-- Without a map the artifact starts a rebuild; nothing behind it changes the session. -/
theorem writeArtifact_session (s : Service) (path : FilePath) :
    ((writeArtifact path).run.run s).2.session = (routes.run.run s).2.session := by
  unfold writeArtifact
  rw [run_bind]
  rcases routes.run.run s with ⟨r, s'⟩
  cases r with
  | error e => rfl
  | ok map =>
    have hchanging : ∀ work : Change Unit, Keeps SameSession (changing work) := fun _ _ => rfl
    have hrecording : ∀ work : Recording Unit, Keeps SameSession (recording work) := fun _ _ => rfl
    have hrest : Keeps SameSession (do
        changing (FileTree.deliver path (RouteMap.text map).toUTF8)
        recording (logged .info ("Wrote route map to " ++ path.text))
        return path) :=
      (hchanging _).bind fun _ => (hrecording _).bind fun _ => keeps_pure _
    exact hrest s'

/-- Without a map there is no artifact. -/
theorem writeArtifact_error {s s' : Service} {e : Failure} (h : routes.run.run s = (.error e, s'))
    (path : FilePath) : (writeArtifact path).run.run s = (.error e, s') := by
  unfold writeArtifact
  rw [run_bind, h]

end Session

/-! ## Requests -/

/-- What a session can be asked for. -/
inductive Request where
  | rebuild
  | routes
  | fileChanged (file : String)
  | handles (file : String)
  | writeArtifact (path : FilePath)

/-- What a request is answered with. -/
inductive Answer where
  | map (map : RouteMap)
  | changed (map : Option RouteMap)
  | handled (yes : Bool)
  | written (path : FilePath)

namespace Request

open Service

/-- The work that a request asks for. -/
def serve : Request → Serving Answer
  | .rebuild => return .map (← Session.rebuild)
  | .routes => return .map (← Session.routes)
  | .fileChanged file => return .changed (← Session.fileChanged file)
  | .handles file => return .handled ((← get).session.handles file)
  | .writeArtifact path => return .written (← Session.writeArtifact path)

/-- Whether a request starts a scan: the map and the artifact do if there is no map yet. -/
def scans (s : Session) : Request → Bool
  | .rebuild => true
  | .routes | .writeArtifact _ => s.cached.isNone
  | .fileChanged file => s.handles file
  | .handles _ => false

end Request

namespace Service

/-- The results of the scans that a request starts. -/
def scansFor (s : Service) (r : Request) : List (Except Failure RouteMap) :=
  if r.scans s.session then [s.scan] else []

theorem scansFor_of_scans {s : Service} {r : Request} (h : r.scans s.session = true) :
    s.scansFor r = [s.scan] := if_pos h

theorem scansFor_of_not {s : Service} {r : Request} (h : r.scans s.session = false) :
    s.scansFor r = [] := if_neg (Bool.eq_false_iff.1 h)

/-- What a request for the map leaves of the session. -/
theorem routes_session (s : Service) :
    (Session.routes.run.run s).2.session = s.session.seeing (s.scansFor .routes) := by
  cases hc : s.session.cached with
  | some map =>
    have hnot : Request.routes.scans s.session = false := by simp [Request.scans, hc]
    rw [Session.routes_cached hc, scansFor_of_not hnot, Session.seeing_nil]
  | none =>
    have hscans : Request.routes.scans s.session = true := by simp [Request.scans, hc]
    obtain ⟨journal, hrebuild⟩ := Session.rebuild_run s
    rw [Session.routes_uncached hc, hrebuild, scansFor_of_scans hscans]

/-- **One request.**  The session has seen the scans that the request started, and nothing else. -/
theorem serve_session (s : Service) (r : Request) :
    (r.serve.run.run s).2.session = s.session.seeing (s.scansFor r) := by
  cases r with
  | rebuild =>
    obtain ⟨journal, hrebuild⟩ := Session.rebuild_run s
    unfold Request.serve
    rw [run_map, hrebuild]
    rfl
  | routes =>
    unfold Request.serve
    rw [run_map]
    exact routes_session s
  | fileChanged file =>
    unfold Request.serve
    rw [run_map]
    cases hh : s.session.handles file with
    | false =>
      have hnot : (Request.fileChanged file).scans s.session = false := hh
      rw [Session.fileChanged_passed hh, scansFor_of_not hnot, Session.seeing_nil]
    | true =>
      have hscans : (Request.fileChanged file).scans s.session = true := hh
      obtain ⟨journal, hchanged⟩ := Session.fileChanged_handled hh
      rw [hchanged, scansFor_of_scans hscans]
  | handles file =>
    unfold Request.serve
    rw [run_map]
    rfl
  | writeArtifact path =>
    unfold Request.serve
    rw [run_map]
    exact (Session.writeArtifact_session s path).trans (routes_session s)

/-- A request whose scan fails is answered with the failure, and leaves all but the journal. -/
theorem serve_error {s : Service} {r : Request} {e : Failure} (hr : r.scans s.session = true)
    (he : s.scan = .error e) : ∃ journal, r.serve.run.run s = (.error e, { s with journal }) := by
  obtain ⟨journal, hrebuild⟩ := Session.rebuild_run s
  rw [he, Session.seeing_error] at hrebuild
  have hroutes : s.session.cached.isNone = true →
      Session.routes.run.run s = (.error e, { s with journal }) := fun hc =>
    (Session.routes_uncached (Option.isNone_iff_eq_none.1 hc)).trans hrebuild
  cases r with
  | rebuild => exact ⟨journal, by unfold Request.serve; rw [run_map, hrebuild]; rfl⟩
  | routes => exact ⟨journal, by unfold Request.serve; rw [run_map, hroutes hr]; rfl⟩
  | fileChanged file =>
    obtain ⟨journal, hchanged⟩ := Session.fileChanged_handled hr
    rw [he, Session.seeing_error] at hchanged
    exact ⟨journal, by unfold Request.serve; rw [run_map, hchanged]; rfl⟩
  | handles file => cases hr
  | writeArtifact path =>
    have hwritten := Session.writeArtifact_error (hroutes hr) path
    exact ⟨journal, by unfold Request.serve; rw [run_map, hwritten]; rfl⟩

end Service

/-! ## Sequences of steps -/

namespace Service

/-- What happens to a service. -/
inductive Step where
  | request (r : Request)
  /-- The tree becomes another one, by work that is not the session's. -/
  | change (tree : FileTree)

/-- The service after a step. -/
def after (s : Service) : Step → Service
  | .request r => (r.serve.run.run s).2
  | .change tree => { s with tree }

/-- The results of the scans that a step starts. -/
def scansAt (s : Service) : Step → List (Except Failure RouteMap)
  | .request r => s.scansFor r
  | .change _ => []

/-- The service after some steps. -/
def afterAll (s : Service) (steps : List Step) : Service :=
  steps.foldl after s

/-- The results of the scans that some steps start, in their order. -/
def scansOver : Service → List Step → List (Except Failure RouteMap)
  | _, [] => []
  | s, step :: steps => s.scansAt step ++ scansOver (s.after step) steps

theorem after_session (s : Service) (step : Step) :
    (s.after step).session = s.session.seeing (s.scansAt step) := by
  cases step with
  | request r => exact serve_session s r
  | change tree => rfl

/-- The session has seen the scans that the steps started, and nothing else. -/
theorem afterAll_session (s : Service) (steps : List Step) :
    (s.afterAll steps).session = s.session.seeing (s.scansOver steps) := by
  induction steps generalizing s with
  | nil => rfl
  | cons step steps ih =>
    show ((s.after step).afterAll steps).session = _
    rw [ih, after_session, ← Session.seeing_append]
    rfl

end Service

open Service

/-- **The last good map.**  After any requests, with the tree changed in any way between them, a session
    holds the map of the last scan that succeeded, or what it held before if none did.  A request whose
    scan fails is answered with that failure, whatever it is, and leaves the tree and the session; once
    there is a map, asking for it gives it and changes nothing, so that nothing is scanned. -/
theorem last_good_map (s : Service) (steps : List Step) :
    (s.afterAll steps).session.cached = lastGood s.session.cached (s.scansOver steps) ∧
    (∀ (r : Request) (e : Failure), r.scans (s.afterAll steps).session = true →
      (s.afterAll steps).scan = .error e →
        ∃ journal, r.serve.run.run (s.afterAll steps) =
          (.error e, { s.afterAll steps with journal })) ∧
    (∀ map, (s.afterAll steps).session.cached = some map →
      Request.routes.serve.run.run (s.afterAll steps) = (.ok (.map map), s.afterAll steps)) := by
  refine ⟨?_, fun r e hr he => serve_error hr he, fun map hmap => ?_⟩
  · rw [afterAll_session]
    rfl
  · unfold Request.serve
    rw [run_map, Session.routes_cached hmap]
    rfl

/-- A session of a project without files. -/
def emptyProject : Service :=
  { tree := { root := [("src", .directory [])] }, session := { root := .ofText "/src" } }

theorem plain_emptyProject : emptyProject.tree.Plain := by
  have hname : IsEntryName "src" := by decide
  simp [FileTree.Plain, emptyProject, Entry.Plain.directory_iff, hname]

/-- After a rebuild the files are removed, with the root of the project: a rebuild fails then, and the
    map is that of the first one. -/
theorem last_good_map_removed :
    emptyProject.scansOver [.request .rebuild, .change {}] = [.ok []] ∧
    (emptyProject.afterAll [.request .rebuild, .change {}]).session.cached = some [] ∧
    (Request.rebuild.serve.run.run (emptyProject.afterAll [.request .rebuild, .change {}])).1 =
      .error (.scan (.noRoot (.missing "/src"))) ∧
    (Request.routes.serve.run.run (emptyProject.afterAll [.request .rebuild, .change {}])).1 =
      .ok (.map []) := by
  have hscan : emptyProject.scan = .ok [] := by cbv
  have hscans : emptyProject.scansOver [.request .rebuild, .change {}] = [.ok []] :=
    congrArg (fun r => [r]) hscan
  obtain ⟨hcached, hfails, hroutes⟩ := last_good_map emptyProject [.request .rebuild, .change {}]
  have hremoved : (emptyProject.afterAll [.request .rebuild, .change {}]).scan =
      .error (.scan (.noRoot (.missing "/src"))) := by
    unfold Service.scan
    rw [afterAll_session, hscans]
    cbv
  obtain ⟨journal, hfails⟩ := hfails .rebuild _ rfl hremoved
  rw [hscans] at hcached
  exact ⟨hscans, hcached, by rw [hfails], by rw [hroutes [] hcached]⟩

end RouteAtlas
