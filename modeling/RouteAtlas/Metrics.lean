/-
  RouteAtlas: what is counted during scans.

  Scans count the files they look at, the routes they find, and how often they had to fall back on a
  guess, with the first few files of each reason as samples.

  * `Metrics.countFile`, `countScan`, `countFallback` and `timePhase` record one event each;
  * `Metrics.laterView` is what a summary that was taken earlier shows now: its numbers stay, its
    samples grow with the metrics;
  * `Metrics.line` is a summary on one line.
-/
import RouteAtlas.Text.Cut
import RouteAtlas.Text.Fixed
import RouteAtlas.Text.Quoted

namespace RouteAtlas

open RouteAtlas.Text

/-! ## Fallbacks -/

/-- How often there was one reason to fall back on a guess, and the first files that gave it.  The counts
    and the samples are not kept in two tables of their own: each event adds to both under its reason, so
    that they always have the same reasons, in the same order. -/
structure Fallback where
  reason : String
  count : Nat
  samples : List String
  deriving DecidableEq, Repr

/-- Counts a file; it becomes a sample while there are fewer than `limit`. -/
def Fallback.add (f : Fallback) (file : String) (limit : Int) : Fallback :=
  { f with
    count := f.count + 1
    samples := if (f.samples.length : Int) < limit then f.samples ++ [file] else f.samples }

/-- Counts a file for a reason; a new reason comes last. -/
def Fallback.record (reason file : String) (limit : Int) : List Fallback → List Fallback
  | [] => [Fallback.add ⟨reason, 0, []⟩ file limit]
  | f :: rest =>
    if f.reason == reason then f.add file limit :: rest
    else f :: Fallback.record reason file limit rest

/-- How many samples are kept of a reason. -/
def sampleLimit : Int := 10

/-! ## Metrics -/

/-- The counts of some scans. -/
structure Metrics where
  filesScanned : Nat := 0
  filesWithRoutes : Nat := 0
  routesFound : Int := 0
  scansCompleted : Nat := 0
  scansFailed : Nat := 0
  /-- The reasons in the order in which they first came up. -/
  fallbacks : List Fallback := []
  /-- The seconds that each phase took the last time. -/
  phases : List (String × Float) := []
  /-- The seconds that all files took. -/
  fileSeconds : Float := 0
  deriving Repr

namespace Metrics

/-- Counts an analyzed file with its routes. -/
def countFile (m : Metrics) (seconds : Float) (routes : Int) : Metrics :=
  { m with
    filesScanned := m.filesScanned + 1
    filesWithRoutes := if routes == 0 then m.filesWithRoutes else m.filesWithRoutes + 1
    routesFound := m.routesFound + routes
    fileSeconds := m.fileSeconds + seconds }

/-- Counts a scan, a failed one apart. -/
def countScan (m : Metrics) (failed : Bool) : Metrics :=
  if failed then { m with scansFailed := m.scansFailed + 1 }
  else { m with scansCompleted := m.scansCompleted + 1 }

/-- Counts a fallback. -/
def countFallback (m : Metrics) (reason file : String) (limit : Int := sampleLimit) : Metrics :=
  { m with fallbacks := Fallback.record reason file limit m.fallbacks }

/-- Keeps how long a phase took. -/
def timePhase (m : Metrics) (phase : String) (seconds : Float) : Metrics :=
  { m with phases := (phase, seconds) :: m.phases.filter fun p => p.1 != phase }

/-- The seconds that a file took on average. -/
def averageSeconds (m : Metrics) : Float :=
  m.fileSeconds / (max m.filesScanned 1).toFloat

/-- The names of the timed phases, sorted. -/
def phaseNames (m : Metrics) : List String :=
  (m.phases.map Prod.fst).mergeSort fun a b => decide (a ≤ b)

/-- The samples of a reason. -/
def samplesOf (m : Metrics) (reason : String) : List String :=
  ((m.fallbacks.find? fun f => f.reason == reason).map Fallback.samples).getD []

/-- What a summary shows once the metrics have gone on to `later`: its numbers stay as they were
    taken, and its lists of samples are those of the metrics. -/
def laterView (summary later : Metrics) : Metrics :=
  { summary with
    fallbacks := summary.fallbacks.map fun f => { f with samples := later.samplesOf f.reason } }

/-- A reason with its count. -/
def countText (f : Fallback) : String :=
  quoted f.reason ++ ": " ++ toString f.count

/-- A summary on one line. -/
def line (m : Metrics) : String :=
  "Scanned " ++ toString m.filesScanned ++ " route files, " ++ toString m.routesFound
    ++ " routes, fallbacks: \x7b" ++ joinWith ", " (m.fallbacks.map countText) ++ "\x7d"

end Metrics

/-! ## Events -/

/-- What can be recorded. -/
inductive Event where
  | file (seconds : Float) (routes : Int)
  | scan (failed : Bool)
  | fallback (reason file : String) (limit : Int)
  | phase (name : String) (seconds : Float)
  /-- Metrics are looked at, and nothing is recorded. -/
  | summary

/-- Records an event. -/
def Metrics.record (m : Metrics) : Event → Metrics
  | .file seconds routes => m.countFile seconds routes
  | .scan failed => m.countScan failed
  | .fallback reason file limit => m.countFallback reason file limit
  | .phase name seconds => m.timePhase name seconds
  | .summary => m

/-- The metrics after each of some events. -/
def Metrics.history (m : Metrics) : List Event → List Metrics
  | [] => []
  | e :: rest => m.record e :: Metrics.history (m.record e) rest

/-- The summaries that are taken after each of some events, as they show after the last. -/
def Metrics.summaries (m : Metrics) (events : List Event) : List Metrics :=
  (m.history events).map fun s => s.laterView (events.foldl record m)

end RouteAtlas
