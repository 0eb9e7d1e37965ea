/-
  RouteAtlas: the routes of the files that are found.

  A file is found by the end of its name, and its route leaves the name out where it is the marker as a
  whole.  A name that only ends with the marker stays in the route, as its last segment.

  * `route_of_found` is the route of a file that is found, by the names of its place.
-/
import RouteAtlas.Proofs.Discovery.Found
import RouteAtlas.Proofs.Location
import RouteAtlas.Proofs.Route.Table
import RouteAtlas.Proofs.Template

namespace RouteAtlas.Discovery

open RouteAtlas.Text RouteAtlas.Recording RouteAtlas.Template RouteAtlas.Location

/-- **The route of a file that is found.**  Such a file stands at its path, and its name ends with the
    marker.  If it lies below the last place of the routes marker, and there is no backslash in the names
    behind that place, then its route is found without a warning.  It consists of the directories
    between the routes root and the file if the whole name is the marker, and of these and the name if
    not.  Every route in a table of the file is there, and what its addresses show are the names in this
    route. -/
theorem route_of_found {t : FileTree} {root : FilePath} {settings : Settings} {ignored files : List String}
    {file : String} (ht : t.Named) (hf : find t root settings.routeFileMarker ignored = .ok files)
    (hmem : file ∈ files) :
    ∃ above name e, file = Place.text (above ++ [name]) ∧ t.at? (above ++ [name]) = some e ∧
      (∀ entries refusal, e ≠ .directory entries refusal) ∧ endsWith settings.routeFileMarker name = true ∧
      ∀ directories, LiesBehind (markerNames settings.routesRootMarker) (above ++ [name])
          (directories ++ [name]) → (∀ n ∈ directories ++ [name], '\\' ∉ n.toList) →
        ∃ shown : Place, (name = settings.routeFileMarker → shown = directories) ∧
          (name ≠ settings.routeFileMarker → shown = directories ++ [name]) ∧
          (∀ strict, route settings.routesRootMarker settings.routeFileMarker strict file =
            pure shown.text) ∧
          ∀ limit j table, result (Analysis.analyze t settings file limit) j = .ok table →
            ∀ entry ∈ table, entry.2.path = shown.text ∧
              ∀ url ∈ entry.2.urls, ∃ kept : Place,
                kept.Sublist (shown.map fun n => (Segment.ofText n).shown) ∧ url = kept.text := by
  obtain ⟨above, name, e, rfl, he, hne, hends⟩ := exists_of_mem_find ht hf hmem
  refine ⟨above, name, e, rfl, he, hne, hends, fun directories hbehind hslash => ?_⟩
  have hnames : ∀ n ∈ above ++ [name], IsEntryName n := (ht.entry he).2
  have hdirectories : ∀ n ∈ directories ++ [name], '/' ∉ n.toList := by
    obtain ⟨⟨top, hplace⟩, -⟩ := hbehind
    exact fun n hn => (hnames n (hplace ▸ List.mem_append_right _ hn)).no_slash
  have hmarker : '/' ∉ settings.routeFileMarker.toList := by
    obtain ⟨front, rfl⟩ := endsWith_iff.1 hends
    exact fun hin => hdirectories _ (List.mem_append_right _ (List.mem_singleton_self _))
      (by simp [hin])
  have hroute := route_eq hbehind hnames hslash hmarker
  refine ⟨_, fun h => if_pos h, fun h => if_neg h, hroute, fun limit j table htable => ?_⟩
  have hplace : Analysis.placeOf settings (Place.text (above ++ [name])) = .ok _ :=
    congrArg outcome (hroute settings.strictRoutesRoot)
  rw [(Analysis.steady_analyze settings limit _).result_eq j] at htable
  intro entry hentry
  obtain ⟨hpath, hurls⟩ := Analysis.routes_atPath hplace htable entry hentry
  refine ⟨hpath, fun url hurl => exists_of_mem_templates ?_ (hurls ▸ hurl)⟩
  split
  · exact fun n hn => hdirectories n (List.mem_append_left _ hn)
  · exact hdirectories

/-- A project with one route file, in a directory below its routes. -/
def routesTree (directory name : String) : FileTree :=
  { root := [("src", .directory [("routes", .directory [
      (directory, .directory [(name, .file .empty)])])])] }

theorem named_routesTree {directory name : String} (hd : IsEntryName directory) (hn : IsEntryName name) :
    (routesTree directory name).Named := by
  have hone : ∀ {n : String} {e : Entry}, IsEntryName n → e.Built IsEntryName (fun _ => True) →
      Entry.Built IsEntryName (fun _ => True) (.directory [(n, e)]) := fun hn he =>
    .directory (by simp) (by simpa using hn) (by simpa using he)
  exact hone ⟨⟨by decide, by decide, by decide⟩, by decide⟩
    (hone ⟨⟨by decide, by decide, by decide⟩, by decide⟩ (hone hd (hone hn (.file _))))

/-- The route of a file with the name of the marker. -/
theorem route_of_found_plain :
    (routesTree "x" "+server.ts").Named ∧
    find (routesTree "x" "+server.ts") ⟨"/", []⟩ ({} : Settings).routeFileMarker =
      .ok ["/src/routes/x/+server.ts"] ∧
    (∀ strict, route "src/routes" "+server.ts" strict "/src/routes/x/+server.ts" = pure "/x") ∧
    ∃ table, outcome (Analysis.analyze (routesTree "x" "+server.ts") {} "/src/routes/x/+server.ts") =
      .ok table ∧ ∀ entry ∈ table, entry.2.path = "/x" := by
  have hnames : ∀ n ∈ ["src", "routes", "x", "+server.ts"], IsEntryName n := by
    intro n hn
    fin_cases hn <;> exact ⟨⟨by decide, by decide, by decide⟩, by decide⟩
  have ht : (routesTree "x" "+server.ts").Named :=
    named_routesTree (hnames _ (by simp)) (hnames _ (by simp))
  have hf : find (routesTree "x" "+server.ts") ⟨"/", []⟩ ({} : Settings).routeFileMarker =
      .ok ["/src/routes/x/+server.ts"] := by cbv
  have htable : outcome (Analysis.analyze (routesTree "x" "+server.ts") {} "/src/routes/x/+server.ts") =
      .ok [] := Analysis.outcome_analyze_blank {} _ _ ⟨.empty, by cbv, by cbv⟩
  obtain ⟨above, name, e, hfile, he, -, -, hroute⟩ := route_of_found ht hf (List.mem_singleton_self _)
  have hplace : ["src", "routes", "x"] ++ ["+server.ts"] = above ++ [name] :=
    FilePath.placeText_inj (fun n hn => (hnames n hn).toIsPart)
      (fun n hn => ((ht.entry he).2 n hn).toIsPart) hfile
  obtain ⟨rfl, hname⟩ := List.append_inj' hplace rfl
  obtain rfl := List.singleton_inj.1 hname
  have hmarker : markerNames "src/routes" = ["src", "routes"] := by cbv
  obtain ⟨shown, hshown, -, hpath, htables⟩ := hroute ["x"]
    (hmarker ▸ LiesBehind.of_notMem (by decide) []) (by decide)
  obtain rfl := hshown rfl
  exact ⟨ht, hf, hpath, _, htable, fun entry hentry => (htables _ _ _ htable entry hentry).1⟩

/-- A name that only ends with the marker stays in the route, and a backslash in the name of a directory
    is taken for a slash. -/
theorem route_of_found_other :
    (find (routesTree "x" "api+server.ts") ⟨"/", []⟩ "+server.ts" = .ok ["/src/routes/x/api+server.ts"] ∧
      LiesBehind (markerNames "src/routes") ["src", "routes", "x", "api+server.ts"]
        ["x", "api+server.ts"] ∧
      outcome (route "src/routes" "+server.ts" false "/src/routes/x/api+server.ts") =
        .ok "/x/api+server.ts" ∧
      "/x/api+server.ts" ≠ Place.text ["x"]) ∧
    find (routesTree "a\\b" "+server.ts") ⟨"/", []⟩ "+server.ts" = .ok ["/src/routes/a\\b/+server.ts"] ∧
      LiesBehind (markerNames "src/routes") ["src", "routes", "a\\b", "+server.ts"]
        ["a\\b", "+server.ts"] ∧
      outcome (route "src/routes" "+server.ts" false "/src/routes/a\\b/+server.ts") = .ok "/a/b" ∧
      "/a/b" ≠ Place.text ["a\\b"] := by
  have hmarker : markerNames "src/routes" = ["src", "routes"] := by cbv
  rw [hmarker]
  exact ⟨⟨by cbv, LiesBehind.of_notMem (by decide) [], by cbv, by decide⟩, by cbv,
    LiesBehind.of_notMem (by decide) [], by cbv, by decide⟩

end RouteAtlas.Discovery
