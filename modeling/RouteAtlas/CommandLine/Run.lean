/-
  RouteAtlas: a run of the command.

  The command scans a project once.  It writes the route map into a file or gives it out, and ends with
  the status 0; it ends with 1 if the scan fails, and with 2 if the arguments make no sense.

  * `run` is such a run, `Exit` its end.
-/
import RouteAtlas.CommandLine.Arguments
import RouteAtlas.Session

namespace RouteAtlas.CommandLine

/-- How a run ends. -/
structure Exit where
  status : Nat
  /-- What is given out; none if the arguments stopped the run. -/
  output : Option String
  deriving DecidableEq, Repr

/-- The status of a run that the arguments stopped. -/
def Stop.status : Stop → Nat
  | help => 0
  | misuse => 2

/-- The session of a command line. -/
def Arguments.session (a : Arguments) (settings : Settings) : Session :=
  { root := FilePath.ofText (a.root.getD "")
    settings :=
      { settings with scanWorkers := max 1 a.workers, strictRoutesRoot := a.strictRoutesRoot } }

/-- Writes the route map where it is wanted, and gives out what is not written into a file. -/
def deliver (output : Option String) : Serving String := do
  match output with
  | some path =>
    let _ ← Session.writeArtifact (FilePath.ofText path)
    return ""
  | none => return RouteMap.text (← Session.routes) ++ "\n"

/-- Scans and delivers; a scan that fails is reported. -/
def work (output : Option String) : Serving Exit := do
  let delivered : Except ScanError String ←
    tryCatch (Except.ok <$> deliver output) fun failure => do
      match failure with
      | .scan e => return .error e
      | _ => throw failure
  match delivered with
  | .error e =>
    Service.recording (logged .error ("Route scan failed: " ++ e.message))
    return ⟨1, some ""⟩
  | .ok text =>
    let metrics := (← get).journal.metrics
    Service.recording (logged .info metrics.line)
    return ⟨0, some text⟩

/-- A run of the command, in a session of its own. -/
def run (settings : Settings) (arguments : List String) : Serving Exit := do
  match Arguments.read settings arguments with
  | .error stop => return ⟨stop.status, none⟩
  | .ok a => Service.within (a.session settings) (work a.output)

end RouteAtlas.CommandLine
