/-
  RouteAtlas: scans do not count themselves.

  A scan counts files and guesses, and how long its phases take.  That it was made is counted by the
  session that started it.

  * `Tally` are the scans that were counted, `SameTally` says that two journals have the same;
  * each step of a scan keeps the tally; `keeps_routeMap`: so does the whole scan.
-/
import RouteAtlas.Proofs.Work
import RouteAtlas.Scan

namespace RouteAtlas

/-- How many scans were counted as completed and as failed. -/
structure Tally where
  completed : Nat
  failed : Nat
  deriving DecidableEq, Repr

/-- The scans that metrics count. -/
def Metrics.tally (m : Metrics) : Tally :=
  ⟨m.scansCompleted, m.scansFailed⟩

/-- Two journals count the same scans. -/
def SameTally (j j' : Journal) : Prop :=
  j'.metrics.tally = j.metrics.tally

instance : IsPreorder Journal SameTally where
  refl _ := rfl
  trans _ _ _ h h' := h'.trans h

open RouteAtlas.Work

/-! ## Single steps -/

theorem keeps_failing {α : Type} (e : ScanError) : Keeps SameTally (failing e : Recording α) :=
  fun _ => rfl

theorem keeps_logged (level : Level) (text : String) : Keeps SameTally (logged level text) :=
  fun _ => rfl

theorem keeps_fallBack (reason file : String) : Keeps SameTally (fallBack reason file) :=
  fun _ => rfl

theorem keeps_countFile (seconds : Float) (routes : Int) :
    Keeps SameTally (counted fun m => m.countFile seconds routes) :=
  fun _ => rfl

theorem keeps_timePhase (phase : String) (seconds : Float) :
    Keeps SameTally (counted fun m => m.timePhase phase seconds) :=
  fun _ => rfl

/-! ## Files -/

namespace Analysis

open RouteAtlas.Code RouteAtlas.Handler

section
variable (settings : Settings) (limit : Nat) (file : String) (root : Node)

theorem keeps_handlerTypes (method : String) (d : FunctionDeclaration) :
    Keeps SameTally (handlerTypes settings limit file method root d) := by
  unfold handlerTypes
  split
  · exact keeps_pure _
  · exact (keeps_logged _ _).bind fun _ => (keeps_fallBack _ _).bind fun _ => keeps_pure _

theorem keeps_knownResponse (response : Option String) :
    Keeps SameTally (knownResponse settings file response) := by
  cases response with
  | none => exact (keeps_fallBack _ _).bind fun _ => keeps_pure _
  | some type => exact keeps_pure _

theorem keeps_routeOf (method path : String) (d : FunctionDeclaration) :
    Keeps SameTally (routeOf settings limit file method path root d) := by
  refine (keeps_handlerTypes settings limit file root method d).bind fun types =>
    (keeps_knownResponse settings file types.response).bind fun returnType => ?_
  cases Method.ofWord? method with
  | none => exact keeps_throw _
  | some m => exact keeps_pure _

theorem keeps_route (marker fileName : String) (strict : Bool) :
    Keeps SameTally (Location.route marker fileName strict file) := by
  have hguess : ∀ path : String, Keeps SameTally (do
      logged .warning ("Routes root '" ++ marker ++ "' not found in " ++ file ++ "; using the full path")
      fallBack "routes_root_missing" file
      return path) := fun _ =>
    (keeps_logged _ _).bind fun _ => (keeps_fallBack _ _).bind fun _ => keeps_pure _
  unfold Location.route
  simp only
  split
  · exact keeps_pure _
  · split
    · exact (keeps_failing _).bind fun _ => hguess _
    · exact (keeps_pure _).bind fun _ => hguess _

theorem keeps_addMethod (exported : Declarations) (progress : Progress) (method : String) :
    Keeps SameTally (addMethod settings limit file root exported progress method) := by
  have hplace : Keeps SameTally (pathOf settings file progress.path) := by
    unfold pathOf
    split
    · exact keeps_pure _
    · exact keeps_route file _ _ _
  unfold addMethod
  split
  · exact keeps_pure _
  · split
    · exact (keeps_fallBack _ _).bind fun _ => keeps_pure _
    · exact hplace.bind fun _ => (keeps_routeOf settings limit file root _ _ _).bind fun _ =>
        keeps_pure _

theorem keeps_tableOf : Keeps SameTally (tableOf settings limit file root) :=
  (keeps_foldlM (keeps_addMethod settings limit file root _) _ _).bind fun _ => keeps_pure _

end

theorem keeps_readFile (t : FileTree) (file : String) : Keeps SameTally (readFile t file) := by
  unfold readFile
  split
  · exact keeps_failing _
  · split
    · exact keeps_failing _
    · split
      · exact keeps_failing _
      · exact keeps_pure _

theorem keeps_analyze (t : FileTree) (settings : Settings) (file : String) (limit : Nat) :
    Keeps SameTally (analyze t settings file limit) :=
  (keeps_readFile t file).bind fun root => (keeps_tableOf settings limit file root).bind fun _ =>
    (keeps_countFile _ _).bind fun _ => keeps_pure _

end Analysis

/-! ## Scans -/

namespace Scan

open RouteAtlas.Analysis

variable (t : FileTree) (settings : Settings)

theorem keeps_tables (files : List String) : Keeps SameTally (tables t settings files) :=
  keeps_mapM (fun file => (keeps_analyze t settings file _).bind fun _ => keeps_pure _) files

/-- **A scan counts no scan.** -/
theorem keeps_routeMap (root : FilePath) : Keeps SameTally (routeMap t settings root) := by
  have hfiles : Keeps SameTally (routeFiles t settings root) := by
    unfold routeFiles
    split
    · exact keeps_pure _
    · exact keeps_failing _
  refine hfiles.bind fun files => (keeps_timePhase _ _).bind fun _ => ?_
  have hend : ∀ map : RouteMap, Keeps SameTally (do
      counted fun m => m.timePhase "analyze" 0
      return map : Recording RouteMap) := fun map => (keeps_timePhase _ _).bind fun _ => keeps_pure map
  split
  · exact ((keeps_tables t settings files).bind fun _ => keeps_pure _).bind hend
  · exact ((keeps_tables t settings files).bind fun _ => keeps_pure _).bind hend

end Scan

end RouteAtlas
