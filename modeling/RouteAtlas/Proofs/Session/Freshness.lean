/-
  RouteAtlas: sessions that are told of changes.

  * `Service.Fresh`: there is no map yet, or the map is that of a scan of the tree as it stands, whenever
    such a scan succeeds;
  * `scan_unhandled`: a change of a file that the session does not handle changes nothing of a scan;
  * `scan_turns`: a scan behind changes of files is that of the project as they left it;
  * `fresh_behind_changes`: a session that is told of every change of a file stays fresh.
-/
import RouteAtlas.Proofs.Discovery.Found
import RouteAtlas.Proofs.Scan.Together
import RouteAtlas.Proofs.Session.LastGood

namespace RouteAtlas

open RouteAtlas.Analysis RouteAtlas.Recording RouteAtlas.Text RouteAtlas.Work

/-! ## Changes of files -/

/-- A change of one file. -/
inductive FileChange where
  /-- It is written in a directory that is there. -/
  | write (content : ByteArray)
  /-- It is written, and the missing directories above it are made. -/
  | writeBelow (content : ByteArray)
  | remove

/-- The work that changes the file at a path. -/
def FileChange.work (path : FilePath) : FileChange → Change Unit
  | .write content => FileTree.write path content
  | .writeBelow content => FileTree.writeBelow path content
  | .remove => FileTree.removeFile path

/-- A change of a file spares all files with other names. -/
theorem FileChange.spares {path : FilePath} (hpath : FileTree.FromRoot path) (change : FileChange) :
    Keeps (FileTree.SparesPlain (FileTree.OtherThan path)) (change.work path) := by
  cases change with
  | write content => exact FileTree.spares_write hpath content
  | writeBelow content => exact FileTree.spares_writeBelow hpath content
  | remove => exact FileTree.spares_removeFile hpath

/-- A change of a file leaves different names different. -/
theorem FileChange.distinct (path : FilePath) (change : FileChange) :
    Keeps FileTree.StaysDistinct (change.work path) := by
  cases change with
  | write content => exact FileTree.distinct_write path content
  | writeBelow content =>
    exact (FileTree.distinct_makeAll _ _).bind fun _ => FileTree.distinct_write path content
  | remove => exact FileTree.distinct_removeFile path

namespace Service

/-- The project of a session has files and directories and no links, and its root is a directory. -/
structure Watchable (s : Service) : Prop where
  plain : s.tree.Plain
  root : s.tree.isDirectory s.session.root = true

/-- There is no map yet, or the map is that of a scan of the tree as it stands, whenever such a scan
    succeeds. -/
def Fresh (s : Service) : Prop :=
  s.session.cached = none ∨ ∀ map, s.scan = .ok map → s.session.cached = some map

/-- The service after a change of a file that nobody was told of yet. -/
def afterChange (s : Service) (path : FilePath) (change : FileChange) : Service :=
  ((changing (change.work path)).run.run s).2

variable {s : Service} {path : FilePath}

theorem afterChange_session (s : Service) (path : FilePath) (change : FileChange) :
    (s.afterChange path change).session = s.session := rfl

/-- A change of a file spares all files with other names. -/
theorem afterChange_spares (hs : s.Watchable) (hpath : FileTree.FromRoot path) (change : FileChange) :
    FileTree.Spares (FileTree.OtherThan path) s.tree (s.afterChange path change).tree :=
  change.spares hpath s.tree hs.plain

theorem Watchable.afterChange (hs : s.Watchable) (hpath : FileTree.FromRoot path)
    (change : FileChange) : (s.afterChange path change).Watchable := by
  have hspares := afterChange_spares hs hpath change
  exact ⟨hspares.plain, FileTree.isDirectory_spared hs.plain hspares hs.root⟩

/-- A file whose path the session does not handle has a name that does not end with the marker. -/
theorem otherThan_of_unhandled (hpath : FileTree.FromRoot path)
    (h : s.session.handles path.text = false) {name : String}
    (hname : endsWith s.session.settings.routeFileMarker name = true) :
    FileTree.OtherThan path name := by
  intro hlast
  obtain ⟨above, hnames⟩ := List.getLast?_eq_some_iff.1 hlast
  have hpart := hpath.parts name (List.mem_of_getLast? hlast)
  have hends := FilePath.endsWith_text hnames hname hpart.ne_empty
  unfold Session.handles at h
  rw [hends] at h
  cases h

/-- **Changes that are passed over.**  A change of a file that the session does not handle changes
    nothing of a scan. -/
theorem scan_unhandled (hs : s.Watchable) (hpath : FileTree.FromRoot path)
    (h : s.session.handles path.text = false) (change : FileChange) :
    (s.afterChange path change).scan = s.scan := by
  have hspares := (afterChange_spares hs hpath change).imp fun _ => otherThan_of_unhandled hpath h
  have hsame : Scan.routeMap s.tree s.session.settings s.session.root =
      Scan.routeMap (s.afterChange path change).tree s.session.settings s.session.root :=
    Scan.routeMap_congr (Discovery.find_spared hs.plain hspares hs.root)
      fun files hf file hmem => Discovery.read_spared hs.plain hspares hf hmem
  unfold scan
  rw [afterChange_session, ← hsame]

/-! ## Turns -/

/-- What happens to a session that is told of changes. -/
inductive Turn where
  /-- A file is changed, and the session is told of its path. -/
  | changed (path : FilePath) (change : FileChange)
  /-- The map is asked for. -/
  | read

/-- The path of a turn has a root. -/
def Turn.FromRoot : Turn → Prop
  | .changed path _ => FileTree.FromRoot path
  | .read => True

/-- The service after a turn; what fails in it is passed over. -/
def turn (s : Service) : Turn → Service
  | .changed path change => ((Session.fileChanged path.text).run.run (s.afterChange path change)).2
  | .read => (Session.routes.run.run s).2

/-- A change that the session does not handle is all that happens. -/
theorem turn_unhandled (h : s.session.handles path.text = false) (change : FileChange) :
    s.turn (.changed path change) = s.afterChange path change := by
  show ((Session.fileChanged path.text).run.run (s.afterChange path change)).2 = _
  have hpassed : (s.afterChange path change).session.handles path.text = false := h
  rw [Session.fileChanged_passed hpassed]

/-- Behind a change that the session handles, it has seen a scan. -/
theorem turn_handled (h : s.session.handles path.text = true) (change : FileChange) :
    ∃ journal, s.turn (.changed path change) = { s.afterChange path change with
      journal, session := s.session.seeing [(s.afterChange path change).scan] } := by
  have hhandled : (s.afterChange path change).session.handles path.text = true := h
  obtain ⟨journal, hchanged⟩ := Session.fileChanged_handled hhandled
  exact ⟨journal, congrArg Prod.snd hchanged⟩

theorem turn_read (s : Service) : s.turn .read = (Session.routes.run.run s).2 := rfl

/-- The service after some turns. -/
def turns (s : Service) (ts : List Turn) : Service :=
  ts.foldl turn s

/-- What a turn leaves of a tree; the session has no part in it. -/
def Turn.after (t : FileTree) : Turn → FileTree
  | .changed path change => ((change.work path).run.run t).2
  | .read => t

/-- A turn does to the project what its change does; what else it changes is the map and the journal. -/
theorem turn_project (s : Service) (t : Turn) : ∃ journal cached,
    s.turn t = { tree := t.after s.tree, journal, session := { s.session with cached } } := by
  cases t with
  | changed path change =>
    cases hh : s.session.handles path.text with
    | true =>
      obtain ⟨journal, hturn⟩ := turn_handled hh change
      exact ⟨journal, _, hturn⟩
    | false => exact ⟨_, _, turn_unhandled hh change⟩
  | read =>
    rw [turn_read]
    cases hc : s.session.cached with
    | some map => exact ⟨_, _, congrArg Prod.snd (Session.routes_cached hc)⟩
    | none =>
      obtain ⟨journal, hrebuild⟩ := Session.rebuild_run s
      rw [Session.routes_uncached hc, hrebuild]
      exact ⟨journal, _, rfl⟩

/-- **A scan behind some turns** is that of the project as the changes of files left it. -/
theorem scan_turns (s : Service) (ts : List Turn) : (s.turns ts).scan =
    outcome (Scan.routeMap (ts.foldl Turn.after s.tree) s.session.settings s.session.root) := by
  induction ts generalizing s with
  | nil => rfl
  | cons t ts ih =>
    obtain ⟨journal, cached, hturn⟩ := turn_project s t
    show ((s.turn t).turns ts).scan = _
    rw [ih, hturn]
    rfl

/-- A session that has just seen a scan of the tree as it stands is fresh. -/
theorem fresh_seeing (s : Service) (journal : Journal) :
    Fresh { s with journal, session := s.session.seeing [s.scan] } := by
  refine Or.inr fun map hmap => ?_
  have hscan : s.scan = .ok map := hmap
  show (s.session.seeing [s.scan]).cached = some map
  rw [hscan]
  rfl

theorem Watchable.seeing (hs : s.Watchable) (journal : Journal) :
    Watchable { s with journal, session := s.session.seeing [s.scan] } :=
  ⟨hs.plain, hs.root⟩

/-- One turn keeps a session fresh. -/
theorem fresh_turn (hs : s.Watchable) (hf : s.Fresh) {t : Turn} (ht : t.FromRoot) :
    (s.turn t).Watchable ∧ (s.turn t).Fresh := by
  cases t with
  | changed path change =>
    have hw := hs.afterChange ht change
    cases hh : s.session.handles path.text with
    | true =>
      obtain ⟨journal, hturn⟩ := turn_handled hh change
      rw [hturn]
      exact ⟨hw.seeing journal, fresh_seeing _ journal⟩
    | false =>
      rw [turn_unhandled hh]
      refine ⟨hw, ?_⟩
      unfold Fresh
      rw [scan_unhandled hs ht hh, afterChange_session]
      exact hf
  | read =>
    rw [turn_read]
    cases hc : s.session.cached with
    | some map => rw [Session.routes_cached hc]; exact ⟨hs, hf⟩
    | none =>
      obtain ⟨journal, hrebuild⟩ := Session.rebuild_run s
      rw [Session.routes_uncached hc, hrebuild]
      exact ⟨hs.seeing journal, fresh_seeing s journal⟩

theorem fresh_turns (hs : s.Watchable) (hf : s.Fresh) {ts : List Turn} (ht : ∀ t ∈ ts, t.FromRoot) :
    (s.turns ts).Watchable ∧ (s.turns ts).Fresh := by
  induction ts generalizing s with
  | nil => exact ⟨hs, hf⟩
  | cons t ts ih =>
    obtain ⟨hfirst, hrest⟩ := List.forall_mem_cons.1 ht
    obtain ⟨hs', hf'⟩ := fresh_turn hs hf hfirst
    exact ih hs' hf' hrest

/-- A fresh session answers with the map of a scan of the tree as it stands, if it succeeds. -/
theorem Fresh.routes (hf : s.Fresh) {map : RouteMap} (hmap : s.scan = .ok map) :
    (Session.routes.run.run s).1 = .ok map := by
  cases hc : s.session.cached with
  | some held =>
    rcases hf with hnone | hfresh
    · rw [hc] at hnone; cases hnone
    · have hheld := hfresh map hmap
      rw [Session.routes_cached hheld]
  | none =>
    obtain ⟨journal, hrebuild⟩ := Session.rebuild_run s
    rw [Session.routes_uncached hc, hrebuild]
    exact hmap

/-- **A session that is told of changes is never stale.**  In a project of files and directories, let
    files be written and removed, let the session be told of each by its path, and let the map be asked
    for in between.  Then there is no map yet, or it is that of a scan of the project as it stands,
    whenever such a scan succeeds, and then the session answers with it, also if it could not before.
    A change that the session does not handle changes nothing of a scan. -/
theorem fresh_behind_changes (hs : s.Watchable) (hf : s.Fresh) (ts : List Turn)
    (ht : ∀ t ∈ ts, t.FromRoot) :
    (s.turns ts).Fresh ∧
    (∀ map, (s.turns ts).scan = .ok map → (Session.routes.run.run (s.turns ts)).1 = .ok map) ∧
    (∀ path change, FileTree.FromRoot path → (s.turns ts).session.handles path.text = false →
      ((s.turns ts).afterChange path change).scan = (s.turns ts).scan) := by
  obtain ⟨hs', hf'⟩ := fresh_turns hs hf ht
  exact ⟨hf', fun map hmap => hf'.routes hmap, fun path change hpath hh =>
    scan_unhandled hs' hpath hh change⟩

theorem watchable_emptyProject : emptyProject.Watchable :=
  ⟨plain_emptyProject, by cbv⟩

/-- A route file in directories that are not there yet. -/
def newFile : String := "/src/routes/a/+server.ts"

/-- The project with this route file. -/
def routeProject (content : ByteArray) : FileTree :=
  { root := Scan.projectWith "a" (.file content) }

section
variable (content : ByteArray)

theorem after_writeBelow_newFile :
    Turn.after emptyProject.tree (.changed (.ofText newFile) (.writeBelow content)) =
      routeProject content := by
  cbv

theorem after_write_newFile (before : ByteArray) :
    Turn.after (routeProject before) (.changed (.ofText newFile) (.write content)) =
      routeProject content := by
  cbv

theorem read_routeProject : (routeProject content).read (.ofText newFile) = .ok content := by
  cbv

theorem find_routeProject : Discovery.find (routeProject content) (.ofText "/src")
    ({} : Settings).routeFileMarker ({} : Settings).ignoredDirs = .ok [newFile] := by
  cbv

end

/-- The route file is written without a handler, and broken after the map was read. -/
def breaking : List Turn :=
  [.changed (.ofText newFile) (.writeBelow .empty), .read,
    .changed (.ofText newFile) (.write "export function".toUTF8)]

/-- Then it is repaired, and has a handler. -/
def repairing : List Turn :=
  breaking ++ [.changed (.ofText newFile) (.write handlerSource.toUTF8)]

theorem after_breaking :
    breaking.foldl Turn.after emptyProject.tree = routeProject "export function".toUTF8 := by
  unfold breaking
  simp only [List.foldl_cons, List.foldl_nil, after_writeBelow_newFile]
  exact after_write_newFile _ _

/-- A route file is written, broken, and repaired.  While it is broken the scan of the project fails, and
    then the session answers with the route that the file has now. -/
theorem fresh_behind_changes_repaired :
    emptyProject.Watchable ∧ emptyProject.Fresh ∧ (∀ t ∈ repairing, t.FromRoot) ∧
    emptyProject.session.handles newFile = true ∧
    (emptyProject.turns breaking).scan = .error (.scan (.malformed newFile 1)) ∧
    (Session.routes.run.run (emptyProject.turns repairing)).1 =
      .ok [("/src/routes/a/+server.ts", [(.get, handlerRoute "/a")])] := by
  have hfresh : emptyProject.Fresh := Or.inl rfl
  have hnew : FileTree.FromRoot (.ofText newFile) := FileTree.fromRoot_ofText (by decide)
  have hturns : ∀ t ∈ repairing, t.FromRoot := by
    simp [repairing, breaking, Turn.FromRoot, hnew]
  refine ⟨watchable_emptyProject, hfresh, hturns, by decide, ?_, ?_⟩
  · have hsource : HasSource (routeProject "export function".toUTF8) newFile "export function" :=
      ⟨_, read_routeProject _, by decide +kernel⟩
    have hfault : Code.readModule (Code.Dialect.ofFile newFile) "export function" = .error ⟨1⟩ := by
      have hline : (Code.readModule (Code.Dialect.ofFile newFile) "export function").map (fun _ => ()) =
          .error ⟨1⟩ := by
        decide +kernel
      cases hr : Code.readModule (Code.Dialect.ofFile newFile) "export function" with
      | error fault => rw [hr] at hline; exact congrArg _ (Except.error.inj hline)
      | ok root => rw [hr] at hline; cases hline
    rw [scan_turns, after_breaking]
    exact (Scan.outcome_routeMap_single (find_routeProject _)).trans
      (by rw [outcome_analyze_malformed _ _ _ hsource hfault]; rfl)
  · refine (fresh_behind_changes watchable_emptyProject hfresh repairing hturns).2.1 _ ?_
    have hrepaired : repairing.foldl Turn.after emptyProject.tree =
        routeProject handlerSource.toUTF8 := by
      rw [repairing, List.foldl_append, after_breaking]
      exact after_write_newFile _ _
    rw [scan_turns, hrepaired]
    exact Scan.outcome_routeMap_handler (find_routeProject _) (read_routeProject _) (by decide +kernel)

end Service

end RouteAtlas
