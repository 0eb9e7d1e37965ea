/-
  RouteAtlas: exactly what is found.

  * `Findable t place marker ignored above name` says what is to be found below a place, by the entries of
    the tree alone: a file or a link to no directory, under a name that ends with the marker, in
    directories that are neither ignored nor links;
  * `Refusing t place ignored above reason` says which directories end the search: those that refuse to
    be read, behind names that are not ignored;
  * `find_exact`: finding gives the paths of just what is to be found, in the order of their characters,
    each once, or fails because a directory refuses.
-/
import Mathlib
import RouteAtlas.Proofs.Discovery.Moved

namespace RouteAtlas.Discovery

open RouteAtlas.Text

variable {t : FileTree} {root : FilePath} {place : Place} {entries : Directory}
  {refusal : Option String} {marker : String} {ignored : List String}

/-- What is to be found behind some names below a place.  The names of the place itself are not looked
    at. -/
structure Findable (t : FileTree) (place : Place) (marker : String) (ignored : List String)
    (above : Place) (name : String) : Prop where
  entry : ∃ e, t.at? (place ++ above ++ [name]) = some e ∧ IsTarget t (place ++ above ++ [name]) e
  marked : ∃ front, name = front ++ marker
  spared : ∀ n ∈ above, n ∉ ignored
  /-- The names in front are those of directories, and not of links to directories. -/
  through : ∀ upper, upper <+: above → t.HasDirectory (place ++ upper)

/-- What stands below a directory is what is to be found there. -/
theorem findable_iff (he : t.at? place = some (.directory entries refusal)) {above : Place}
    {name : String} :
    Findable t place marker ignored above name ↔
      Stands t place entries marker ignored above name := by
  have hat := at?_inside he above name
  constructor
  · rintro ⟨hentry, hmarked, hspared, -⟩
    exact ⟨hat ▸ hentry, endsWith_iff.2 hmarked, hspared⟩
  · rintro ⟨hentry, hmarked, hspared⟩
    refine ⟨hat ▸ hentry, endsWith_iff.1 hmarked, hspared, ?_⟩
    rintro upper ⟨rest, rfl⟩
    obtain ⟨e, hentry, -⟩ := hentry
    have hsplit : place ++ (upper ++ rest) ++ [name] = place ++ upper ++ (rest ++ [name]) := by simp
    rw [← hat, hsplit] at hentry
    exact FileTree.hasDirectory_above (by simp) hentry

/-- A directory behind some names below a place, or at it, refuses to be read, and none of the names is
    ignored. -/
structure Refusing (t : FileTree) (place : Place) (ignored : List String) (above : Place)
    (reason : String) : Prop where
  entry : ∃ inner, t.at? (place ++ above) = some (.directory inner (some reason))
  seen : ∀ n ∈ above, n ∉ ignored

/-- The directories that refuse are those that a walk finds refusing. -/
theorem mem_refusals_iff (ht : t.Named) {e : Entry} (he : t.at? place = some e) {p : Place}
    {reason : String} : (p, reason) ∈ e.refusals ignored place ↔
      ∃ above, p = place ++ above ∧ Refusing t place ignored above reason := by
  rw [Entry.mem_refusals_iff (ht.entry he).1]
  refine exists_congr fun above => ?_
  rw [exists_and_left, and_congr_right_iff]
  intro _
  rw [exists_and_left, ← at?_below he]
  exact ⟨fun ⟨hseen, hentry⟩ => ⟨hentry, hseen⟩, fun ⟨hentry, hseen⟩ => ⟨hseen, hentry⟩⟩

/-- Sorted texts that are there once are in strict order. -/
theorem pairwise_lt_sorted {texts : List String} (h : texts.Nodup) :
    (FileTree.sorted texts).Pairwise (· < ·) := by
  have hnodup : (FileTree.sorted texts).Nodup := (FileTree.perm_sorted texts).nodup_iff.2 h
  exact (FileTree.pairwise_sorted texts).imp₂ (fun a b hle hne => lt_of_le_of_ne hle hne) hnodup

/-- **What is found is exactly what is to be found.**  In a directory, finding gives the paths of all files
    and links to no directory whose names end with the marker and that no ignored directory and no link
    hides, in the order of their characters and each once, below the place to which the path of the
    directory leads.  For this every directory on the way has to let itself be read, those with ignored
    names apart.  Otherwise it fails, and names a directory that does not. -/
theorem find_exact (ht : t.Named) (hroot : t.isDirectory root = true) (marker : String)
    (ignored : List String) :
    ∃ place, t.placeOf root = .ok place ∧ t.HasDirectory place ∧
      ((∀ above reason, ¬ Refusing t place ignored above reason) →
        ∃ files, find t root marker ignored = .ok files ∧ files.Pairwise (· < ·) ∧
          ∀ file, file ∈ files ↔ ∃ above name, Findable t place marker ignored above name ∧
            file = (place ++ above ++ [name]).text) ∧
      ∀ above reason, Refusing t place ignored above reason →
        ∃ above' reason', Refusing t place ignored above' reason' ∧
          find t root marker ignored = .error (.noRoot (.refused (place ++ above').text reason')) := by
  rcases find_cases t root marker ignored with hno | ⟨p, r, hstops⟩ |
    ⟨place, entries, hplace, he, hnone, hfind⟩
  · rw [hno] at hroot; cases hroot
  · have hfind : find t root marker ignored = _ := hstops.find_eq
    obtain ⟨place, entries, refusal, rest, hplace, he, hrefusals⟩ := hstops
    obtain ⟨above, rfl, hrefusing⟩ := (mem_refusals_iff ht he).1 (hrefusals ▸ List.mem_cons_self ..)
    exact ⟨place, hplace, ⟨entries, refusal, he⟩, fun hopen => absurd hrefusing (hopen above r),
      fun _ _ _ => ⟨above, r, hrefusing, hfind⟩⟩
  · have horder := pairwise_lt_sorted (@nodup_found t place entries none marker ignored ht he)
    refine ⟨place, hplace, ⟨entries, none, he⟩, fun _ => ⟨_, hfind, horder, fun file => ?_⟩,
      fun above reason hrefusing => ?_⟩
    · rw [(FileTree.perm_sorted _).mem_iff, mem_routeFilesIn_iff (ht.entry he).1 rfl]
      exact exists_congr fun above => exists_congr fun name => and_congr_left' (findable_iff he).symm
    · have hmem := (mem_refusals_iff ht he).2 ⟨above, rfl, hrefusing⟩
      rw [hnone] at hmem
      cases hmem

/-- A directory with a route file in a directory, one in a directory that refuses to be read, a directory
    with the name of a route file, a link that leads nowhere and two that lead to a directory. -/
def linkedSite : Directory :=
  [ ("a", .directory [("+server.ts", .file .empty)]),
    ("build", .directory [("+server.ts", .file .empty)] (some "Permission denied")),
    ("x+server.ts", .directory [("note.txt", .file .empty)]),
    ("b+server.ts", .link "/nowhere"),
    ("c+server.ts", .link "a"),
    ("d", .link "a") ]

/-- A project with this directory behind a link, below a directory with the name of the one that refuses. -/
def linkedTree : FileTree :=
  { root := [("app", .link "/build/site"), ("build", .directory [("site", .directory linkedSite)])] }

theorem named_linkedTree : linkedTree.Named := by
  have hsite : Entry.Built IsEntryName (fun _ => True) (.directory linkedSite) := by
    refine .cons (by decide) (by decide) (.single (by decide) (.file _)) ?_
    refine .cons (by decide) (by decide) (.single (by decide) (.file _)) ?_
    refine .cons (by decide) (by decide) (.single (by decide) (.file _)) ?_
    refine .cons (by decide) (by decide) (.link trivial) ?_
    exact .cons (by decide) (by decide) (.link trivial) (.single (by decide) (.link trivial))
  exact .cons (by decide) (by decide) (.link trivial) (.single (by decide) (.single (by decide) hsite))

theorem placeOf_linkedTree : linkedTree.placeOf ⟨"/", ["app"]⟩ = .ok ["build", "site"] := by cbv

theorem at?_linkedTree : linkedTree.at? ["build", "site"] = some (.directory linkedSite) := rfl

theorem routeFilesIn_linkedSite :
    routeFilesIn linkedTree "+server.ts" ["build"] ["build", "site"] linkedSite =
      ["/build/site/a/+server.ts", "/build/site/b+server.ts"] := by
  have hnowhere : linkedTree.placeOf ⟨"/", ["build", "site", "b+server.ts"]⟩ = .ok ["nowhere"] := by cbv
  have hinside : linkedTree.placeOf ⟨"/", ["build", "site", "c+server.ts"]⟩ =
      .ok ["build", "site", "a"] := by cbv
  have hdangles : linkedTree.leadsToDirectory ["build", "site", "b+server.ts"] = false := by
    rw [FileTree.leadsToDirectory, FileTree.isDirectory, hnowhere]
    rfl
  have hleads : linkedTree.leadsToDirectory ["build", "site", "c+server.ts"] = true :=
    FileTree.isDirectory_iff.2 ⟨_, hinside, _, _, rfl⟩
  simp only [linkedSite, routeFilesIn, routeFilesAt, List.cons_append, List.nil_append, hdangles, hleads]
  decide

/-- The directory that refuses ends the search unless its name is ignored. -/
theorem refusals_linkedSite :
    (Entry.directory linkedSite).refusals ["build"] ["build", "site"] = [] ∧
      (Entry.directory linkedSite).refusals [] ["build", "site"] =
        [(["build", "site", "build"], "Permission denied")] := by
  constructor <;> cbv

theorem find_linkedTree : find linkedTree ⟨"/", ["app"]⟩ "+server.ts" ["build"] =
    .ok ["/build/site/a/+server.ts", "/build/site/b+server.ts"] := by
  rw [find_of_open placeOf_linkedTree at?_linkedTree refusals_linkedSite.1, routeFilesIn_linkedSite,
    FileTree.sorted_eq (by decide) (List.Perm.refl _)]

/-- Only the route file in the directory that can be read and the link that leads nowhere are to be found,
    and nothing is found where the name of the other directory is not ignored. -/
theorem find_exact_linked :
    (linkedTree.Named ∧ linkedTree.isDirectory ⟨"/", ["app"]⟩ = true ∧
      find linkedTree ⟨"/", ["app"]⟩ "+server.ts" ["build"] =
        .ok ["/build/site/a/+server.ts", "/build/site/b+server.ts"] ∧
      ∀ above name, Findable linkedTree ["build", "site"] "+server.ts" ["build"] above name →
        Place.text (["build", "site"] ++ above ++ [name]) ∈
          ["/build/site/a/+server.ts", "/build/site/b+server.ts"]) ∧
    Refusing linkedTree ["build", "site"] [] ["build"] "Permission denied" ∧
      ∃ e, find linkedTree ⟨"/", ["app"]⟩ "+server.ts" [] = .error e := by
  have hroot : linkedTree.isDirectory ⟨"/", ["app"]⟩ = true :=
    FileTree.isDirectory_iff.2 ⟨_, placeOf_linkedTree, _, _, at?_linkedTree⟩
  have hopen : ∀ above reason, ¬ Refusing linkedTree ["build", "site"] ["build"] above reason := by
    intro above reason h
    have hmem := (mem_refusals_iff named_linkedTree at?_linkedTree).2 ⟨above, rfl, h⟩
    rw [refusals_linkedSite.1] at hmem
    cases hmem
  have hrefusing : Refusing linkedTree ["build", "site"] [] ["build"] "Permission denied" :=
    ⟨⟨_, rfl⟩, by simp⟩
  refine ⟨⟨named_linkedTree, hroot, find_linkedTree, fun above name h => ?_⟩, hrefusing, ?_⟩
  · obtain ⟨place, hplace, -, hexact, -⟩ := find_exact named_linkedTree hroot "+server.ts" ["build"]
    rw [placeOf_linkedTree] at hplace
    cases hplace
    obtain ⟨files, hfind, -, hmem⟩ := hexact hopen
    rw [find_linkedTree] at hfind
    cases hfind
    exact (hmem _).2 ⟨above, name, h, rfl⟩
  · obtain ⟨place, hplace, -, -, hfails⟩ := find_exact named_linkedTree hroot "+server.ts" []
    rw [placeOf_linkedTree] at hplace
    cases hplace
    obtain ⟨above, reason, -, hfind⟩ := hfails _ _ hrefusing
    exact ⟨_, hfind⟩

end RouteAtlas.Discovery
