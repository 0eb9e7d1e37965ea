/-
  RouteAtlas: the artifact.

  * `routes_run`: asking for the map leaves the tree, and fails only with a scan that fails;
  * `writeArtifact_run`: the artifact is the delivery of the text of the map;
  * `artifact_all_or_nothing`: it is delivered, or nothing is new but directories above its path.
-/
import RouteAtlas.Proofs.FileTree.Deliver
import RouteAtlas.Proofs.Session.LastGood

namespace RouteAtlas

open RouteAtlas.Work

/-- A request for the map fails: there is none yet, and the scan fails. -/
def Service.LacksMap (s : Service) : Prop :=
  s.session.cached = none ∧ ∃ e, s.scan = .error e

namespace Session

open Service

/-- Asking for the map leaves the tree.  The map is the one that the session holds then, and there is
    none only if the scan fails. -/
theorem routes_run (s : Service) :
    (∃ map journal session, ¬ s.LacksMap ∧ session.cached = some map ∧
      routes.run.run s = (.ok map, { s with journal, session })) ∨
    (∃ e journal, s.LacksMap ∧ routes.run.run s = (.error e, { s with journal })) := by
  cases hc : s.session.cached with
  | some map =>
    have hmap : ¬ s.LacksMap := fun h => by simp [LacksMap, hc] at h
    exact Or.inl ⟨map, s.journal, s.session, hmap, hc, routes_cached hc⟩
  | none =>
    obtain ⟨journal, hrebuild⟩ := rebuild_run s
    rw [routes_uncached hc, hrebuild]
    cases hscan : s.scan with
    | ok map =>
      have hmap : ¬ s.LacksMap := fun h => by simp [LacksMap, hscan] at h
      exact Or.inl ⟨map, journal, _, hmap, rfl, rfl⟩
    | error e => exact Or.inr ⟨e, journal, ⟨hc, e, hscan⟩, rfl⟩

/-- The artifact is the delivery of the text of the map. -/
theorem writeArtifact_run {s : Service} {map : RouteMap} {journal : Journal} {session : Session}
    (h : routes.run.run s = (.ok map, { s with journal, session })) (path : FilePath) :
    ∃ journal, (writeArtifact path).run.run s =
      ((((FileTree.deliver path (RouteMap.text map).toUTF8).run.run s.tree).1.mapError .tree).map
          fun _ => path,
        { tree := ((FileTree.deliver path (RouteMap.text map).toUTF8).run.run s.tree).2
          journal, session }) := by
  have hchanging : (changing (FileTree.deliver path (RouteMap.text map).toUTF8)).run.run
      { s with journal, session } =
        (((FileTree.deliver path (RouteMap.text map).toUTF8).run.run s.tree).1.mapError .tree,
          { tree := ((FileTree.deliver path (RouteMap.text map).toUTF8).run.run s.tree).2
            journal, session }) := rfl
  unfold writeArtifact
  rw [run_bind, h]
  simp only
  rw [run_bind, hchanging]
  rcases (FileTree.deliver path (RouteMap.text map).toUTF8).run.run s.tree with ⟨e | _, t⟩
  · exact ⟨_, rfl⟩
  · exact ⟨_, rfl⟩

end Session

open Session FileTree

/-- **The artifact is all or nothing**, in every state of a session, for every tree and every path.  If it
    is written, the session holds a map, and the text of this map was delivered at the path: it stands
    there, every other entry is as it was, and nothing else is new but directories above the path.  If it
    is not, every entry is as it was, nothing is new but directories above the path (and so no file), and
    where the scan failed nothing is new at all.  In a plain tree it is not written exactly if the scan
    fails, a file stands above the path, or a directory stands at it. -/
theorem artifact_all_or_nothing (s : Service) (path : FilePath) (hs : s.tree.Standing) :
    (∀ written s', (writeArtifact path).run.run s = (.ok written, s') → written = path ∧
      ∃ map made place, s'.session.cached = some map ∧
        Delivered path (RouteMap.text map).toUTF8 s.tree made s'.tree place) ∧
    (∀ e s', (writeArtifact path).run.run s = (.error e, s') →
      Made path.parent s.tree s'.tree ∧ (s.LacksMap → s'.tree = s.tree)) ∧
    (s.tree.Plain → Spelled path → ((∃ e s', (writeArtifact path).run.run s = (.error e, s')) ↔
      s.LacksMap ∨
      (∃ above content, above <+: path.names ∧ above ≠ path.names ∧
        s.tree.at? above = some (.file content)) ∨
      s.tree.HasDirectory path.names)) := by
  rcases routes_run s with ⟨map, _, session, hmap, hcached, hroutes⟩ | ⟨e, journal, hlacks, hroutes⟩
  · obtain ⟨journal, hrun⟩ := writeArtifact_run hroutes path
    have hfails := fun (h : s.tree.Plain) (hp : Spelled path) =>
      deliver_fails_iff h hs hp (RouteMap.text map).toUTF8
    rcases deliver_cases hs path (RouteMap.text map).toUTF8 with
      ⟨made, place, hdelivered, hok⟩ | ⟨hmade, e, he⟩
    · rw [hok] at hrun
      rw [hrun]
      refine ⟨?_, fun e s' h => (nomatch h), fun h hp => ⟨fun ⟨e, s', h⟩ => (nomatch h), fun h' => ?_⟩⟩
      · rintro written s' ⟨⟩
        exact ⟨rfl, map, made, place, hcached, hdelivered⟩
      · obtain ⟨e, he⟩ := (hfails h hp).2 (h'.resolve_left hmap)
        rw [hok] at he
        cases he
    · rw [he] at hrun
      rw [hrun]
      refine ⟨fun written s' h => (nomatch h), ?_, fun h hp => ⟨fun _ => ?_, fun _ => ⟨_, _, rfl⟩⟩⟩
      · rintro _ s' ⟨⟩
        exact ⟨hmade, fun hlacks => absurd hlacks hmap⟩
      · exact Or.inr ((hfails h hp).1 ⟨e, he⟩)
  · rw [writeArtifact_error hroutes path]
    refine ⟨fun written s' h => (nomatch h), ?_, fun _ _ => ⟨fun _ => Or.inl hlacks, fun _ => ⟨_, _, rfl⟩⟩⟩
    rintro _ s' ⟨⟩
    exact ⟨refl_of (Made path.parent) s.tree, fun _ => rfl⟩

/-- In a project without files an artifact in a new directory is written, and one in the place of the
    project's own directory is not. -/
theorem artifact_all_or_nothing_empty :
    emptyProject.tree.Standing ∧
    (∃ s' map, (writeArtifact ⟨"/", ["out", "routes.json"]⟩).run.run emptyProject =
        (.ok ⟨"/", ["out", "routes.json"]⟩, s') ∧ s'.session.cached = some map ∧
      s'.tree.read ⟨"/", ["out", "routes.json"]⟩ = .ok (RouteMap.text map).toUTF8) ∧
    (∃ e s', (writeArtifact ⟨"/", ["src"]⟩).run.run emptyProject = (.error e, s') ∧
      Made ⟨"/", []⟩ emptyProject.tree s'.tree) := by
  have hs : emptyProject.tree.Standing := fun place h => nomatch h
  have hscan : ¬ emptyProject.LacksMap := by
    have hok : emptyProject.scan = .ok [] := by cbv
    rintro ⟨-, e, he⟩
    rw [hok] at he
    cases he
  obtain ⟨hok, -, hfails⟩ := artifact_all_or_nothing emptyProject ⟨"/", ["out", "routes.json"]⟩ hs
  obtain ⟨-, herror, hfails'⟩ := artifact_all_or_nothing emptyProject ⟨"/", ["src"]⟩ hs
  refine ⟨hs, ?_, ?_⟩
  · rcases hr : (writeArtifact ⟨"/", ["out", "routes.json"]⟩).run.run emptyProject with ⟨e | written, s'⟩
    · have hspelled : Spelled ⟨"/", ["out", "routes.json"]⟩ := ⟨rfl, by decide⟩
      rcases (hfails plain_emptyProject hspelled).1 ⟨e, s', hr⟩ with
        hlacks | ⟨above, _, habove, -, hfile⟩ | ⟨_, _, hd⟩
      · exact absurd hlacks hscan
      · have hinits := (List.mem_inits above ["out", "routes.json"]).2 habove
        fin_cases hinits <;> cases hfile
      · cases hd
    · obtain ⟨rfl, map, made, place, hcached, hdelivered⟩ := hok written s' hr
      exact ⟨s', map, rfl, hcached, hdelivered.read fun target => plain_emptyProject.not_link⟩
  · obtain ⟨e, s', hr⟩ := (hfails' plain_emptyProject ⟨rfl, by decide⟩).2 (Or.inr (Or.inr ⟨[], none, rfl⟩))
    exact ⟨e, s', hr, (herror e s' hr).1⟩

end RouteAtlas
