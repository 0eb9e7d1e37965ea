/-
  RouteAtlas: what a scan depends on.

  * `steady_routeMap`: the result of a scan does not depend on what was recorded before it;
  * `routeMap_congr`: trees in which the same route files are found, with the same contents, are scanned
    with the same result.
-/
import RouteAtlas.Proofs.Route.Analysis
import RouteAtlas.Scan

namespace RouteAtlas.Scan

open RouteAtlas.Analysis RouteAtlas.Recording

variable {t t' : FileTree} {settings : Settings} {root : FilePath}

theorem steady_tables (files : List String) : Steady (tables t settings files) :=
  steady_mapM (fun file => (steady_analyze settings _ file).bind fun _ => steady_pure _) files

/-- The result of a scan does not depend on what was recorded before it. -/
theorem steady_routeMap : Steady (routeMap t settings root) := by
  have hfound : Steady (routeFiles t settings root) := by
    unfold routeFiles
    split
    · exact steady_pure _
    · exact steady_failing _
  have hlast : ∀ map : RouteMap, Steady (do counted fun m => m.timePhase "analyze" 0; return map) :=
    fun map => (steady_counted _).bind fun _ => steady_pure _
  unfold routeMap
  refine hfound.bind fun files => (steady_counted _).bind fun _ => ?_
  simp only
  split
  · exact ((steady_tables files).bind fun _ => steady_pure _).bind hlast
  · exact ((steady_tables files).bind fun _ => steady_pure _).bind hlast

/-- **A scan depends on its tree through the route files that it finds and what it reads from them.** -/
theorem routeMap_congr
    (hfind : Discovery.find t root settings.routeFileMarker settings.ignoredDirs =
      Discovery.find t' root settings.routeFileMarker settings.ignoredDirs)
    (hread : ∀ files, Discovery.find t root settings.routeFileMarker settings.ignoredDirs = .ok files →
      ∀ file ∈ files, t.read (.ofText file) = t'.read (.ofText file)) :
    routeMap t settings root = routeMap t' settings root := by
  unfold routeMap routeFiles
  rw [← hfind]
  cases hf : Discovery.find t root settings.routeFileMarker settings.ignoredDirs with
  | error e => rfl
  | ok files =>
    have htables : tables t settings files = tables t' settings files :=
      mapM_congr fun file hmem => by
        rw [analyze_congr settings _ _ (hread files hf file hmem)]
    simp only [pure_bind, together, oneByOne, htables]

end RouteAtlas.Scan
