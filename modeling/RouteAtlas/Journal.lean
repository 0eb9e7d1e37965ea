/-
  RouteAtlas: what is recorded during the work.

  Work on a project counts in metrics and writes entries into a log; both stay when the work fails.

  * `Recording` is work that records; `logged`, `fallBack` and `counted` record;
  * `failing` stops the work.
-/
import RouteAtlas.Failure
import RouteAtlas.Metrics

namespace RouteAtlas

/-- How grave an entry of the log is. -/
inductive Level where
  | info
  | warning
  | error
  deriving DecidableEq, Repr

/-- The word for a level. -/
def Level.word : Level → String
  | info => "INFO"
  | warning => "WARNING"
  | error => "ERROR"

/-- An entry of the log. -/
structure LogEntry where
  level : Level
  text : String
  deriving DecidableEq, Repr

/-- What was recorded. -/
structure Journal where
  metrics : Metrics := {}
  /-- The entries in the order in which they were written. -/
  log : List LogEntry := []
  deriving Repr

namespace Journal

/-- Writes an entry. -/
def write (j : Journal) (level : Level) (text : String) : Journal :=
  { j with log := j.log ++ [⟨level, text⟩] }

/-- Counts in the metrics. -/
def count (j : Journal) (step : Metrics → Metrics) : Journal :=
  { j with metrics := step j.metrics }

end Journal

/-! ## Work that records -/

/-- Work that records, and may fail. -/
abbrev Recording := ExceptT Failure (StateM Journal)

/-- Writes an entry. -/
def logged (level : Level) (text : String) : Recording Unit :=
  modify fun j => j.write level text

/-- Counts in the metrics. -/
def counted (step : Metrics → Metrics) : Recording Unit :=
  modify fun j => j.count step

/-- Counts a file for a reason to fall back on a guess. -/
def fallBack (reason file : String) : Recording Unit :=
  counted fun m => m.countFallback reason file

/-- Stops with an error of the scan. -/
def failing {α : Type} (error : ScanError) : Recording α :=
  throw (.scan error)

end RouteAtlas
