/-
  RouteAtlas: scans that read a project step by step.

  A scan does not see a project at one moment: it lists one directory after the other and reads one file
  after the other, and between two steps the project can change.

  * `Scanner`: a scan by steps, each of which looks at the tree as it is then; if the tree stays as it is,
    the scan comes to the result of `routeMap`;
  * `walker` is the scanner that looks at the root, lists the directories below it one by one, and
    analyzes the files that it found one by one.
-/
import RouteAtlas.Proofs.Discovery.Found
import RouteAtlas.Proofs.Scan.Together

namespace RouteAtlas.Scan

open RouteAtlas.Analysis RouteAtlas.Recording

/-! ## Scanners -/

/-- What a scan by steps comes to if the tree stays as it is. -/
inductive Yields {σ : Type} (step : FileTree → σ → σ ⊕ Except Failure RouteMap) (t : FileTree) :
    σ → Except Failure RouteMap → Prop
  | now {s : σ} {r : Except Failure RouteMap} : step t s = .inr r → Yields step t s r
  | later {s s' : σ} {r : Except Failure RouteMap} : step t s = .inl s' → Yields step t s' r →
      Yields step t s r

theorem Yields.next {σ : Type} {step : FileTree → σ → σ ⊕ Except Failure RouteMap} {t : FileTree}
    {s s' : σ} {r : Except Failure RouteMap} (h : Yields step t s r) (hs : step t s = .inl s') :
    Yields step t s' r := by
  cases h with
  | now hr => rw [hs] at hr; cases hr
  | later hs' hrest => rw [hs] at hs'; cases hs'; exact hrest

theorem Yields.result {σ : Type} {step : FileTree → σ → σ ⊕ Except Failure RouteMap} {t : FileTree}
    {s : σ} {r r' : Except Failure RouteMap} (h : Yields step t s r) (hs : step t s = .inr r') :
    r' = r := by
  cases h with
  | now hr => rw [hs] at hr; exact Sum.inr.inj hr
  | later hs' hrest => rw [hs] at hs'; cases hs'

/-- What a scan of a tree results in. -/
def scanOf (settings : Settings) (root : FilePath) (t : FileTree) : Except Failure RouteMap :=
  outcome (routeMap t settings root)

/-- A scan by steps.  In a tree that stays as it is it does what a scan does. -/
structure Scanner (settings : Settings) (root : FilePath) where
  State : Type
  start : State
  /-- A look at the tree, behind which the scan goes on or has a result. -/
  step : FileTree → State → State ⊕ Except Failure RouteMap
  still : ∀ t : FileTree, t.Distinct → Yields step t start (scanOf settings root t)

/-! ## Walks -/

/-- How far a walk through a project has come. -/
inductive Walk where
  | starting
  /-- Directories are left to be listed. -/
  | listing (places : List Place) (found : List String)
  /-- Files are left to be analyzed. -/
  | reading (files : List String) (entries : List (String × MethodTable))

/-- The route file that an entry is, if it is one. -/
def fileAt (t : FileTree) (marker : String) (place : Place) (name : String) : Entry → List String
  | .directory .. => []
  | entry => Discovery.routeFilesAt t marker [] place name entry

/-- The place of an entry that is to be listed, if it is one. -/
def directoryAt (ignored : List String) (place : Place) (name : String) : Entry → List Place
  | .directory .. => if ignored.contains name then [] else [place]
  | _ => []

variable (settings : Settings) (root : FilePath) (lost : Place → Failure)

/-- One step of a walk.  A directory that refuses to be read is a failure, and so is one that has gone in
    the meantime. -/
def Walk.next (t : FileTree) : Walk → Walk ⊕ Except Failure RouteMap
  | .starting =>
    match t.placeOf root with
    | .error _ => .inr (.error (.scan (.noRoot (.missing root.text))))
    | .ok place =>
      match t.at? place with
      | some (.directory ..) => .inl (.listing [place] [])
      | _ => .inr (.error (.scan (.noRoot (.missing root.text))))
  | .listing [] found => .inl (.reading (FileTree.sorted found) [])
  | .listing (place :: rest) found =>
    match t.at? place with
    | some (.directory _ (some reason)) => .inr (.error (.scan (.noRoot (.refused place.text reason))))
    | some (.directory entries none) =>
      .inl (.listing
        ((entries.flatMap fun e => directoryAt settings.ignoredDirs (place ++ [e.1]) e.1 e.2) ++ rest)
        (found ++ entries.flatMap fun e => fileAt t settings.routeFileMarker (place ++ [e.1]) e.1 e.2))
    | _ => .inr (.error (lost place))
  | .reading [] entries => .inr (.ok (withRoutes entries))
  | .reading (file :: rest) entries =>
    match outcome (analyze t settings file) with
    | .ok table => .inl (.reading rest (entries ++ [(file, table)]))
    | .error e => .inr (.error e)

/-! ## Walks through a tree that stays as it is -/

variable {settings root lost} {t : FileTree} {marker : String} {ignored : List String}

/-- What is found below an entry, if it is a directory that is looked into. -/
def belowAt (t : FileTree) (marker : String) (ignored : List String) (place : Place) (name : String) :
    Entry → List String
  | .directory inner refusal =>
    Discovery.routeFilesAt t marker ignored place name (.directory inner refusal)
  | _ => []

theorem routeFilesAt_eq (place : Place) (name : String) (entry : Entry) :
    Discovery.routeFilesAt t marker ignored place name entry =
      fileAt t marker place name entry ++ belowAt t marker ignored place name entry := by
  cases entry with
  | file content => simp only [fileAt, belowAt, Discovery.routeFilesAt, List.append_nil]
  | link target => simp only [fileAt, belowAt, Discovery.routeFilesAt, List.append_nil]
  | directory inner refusal => rfl

/-- A walk that has found the files analyzes them one after the other. -/
theorem yields_reading (files : List String) (entries : List (String × MethodTable)) :
    Yields (Walk.next settings root lost) t (.reading files entries)
      ((files.mapM fun file => (outcome (analyze t settings file)).map (Prod.mk file)).map
        fun more => withRoutes (entries ++ more)) := by
  induction files generalizing entries with
  | nil => exact .now (by rw [Walk.next]; simp [pure, Except.pure, Except.map])
  | cons file files ih =>
    rw [List.mapM_cons]
    cases hf : outcome (analyze t settings file) with
    | error e => exact .now (by rw [Walk.next, hf]; rfl)
    | ok table =>
      refine .later (by rw [Walk.next, hf]) ?_
      have hrest := ih (entries ++ [(file, table)])
      cases hm : files.mapM fun file => (outcome (analyze t settings file)).map (Prod.mk file) with
      | error e =>
        rw [hm] at hrest
        exact hrest
      | ok more =>
        rw [hm] at hrest
        show Yields _ t _ (.ok (withRoutes (entries ++ ([(file, table)] ++ more))))
        rw [← List.append_assoc]
        exact hrest

/-- A walk comes to a result: it fails with the first of some refusals, and without one it goes on. -/
def ComesTo (refusals : List (Place × String)) (r : Except Failure RouteMap) (goesOn : Prop) : Prop :=
  match refusals with
  | (place, reason) :: _ => r = .error (.scan (.noRoot (.refused place.text reason)))
  | [] => goesOn

theorem comesTo_append (before after : List (Place × String)) (r : Except Failure RouteMap)
    (goesOn : Prop) :
    ComesTo (before ++ after) r goesOn ↔ ComesTo before r (ComesTo after r goesOn) := by
  cases before <;> rfl

theorem ComesTo.imp {refusals : List (Place × String)} {r : Except Failure RouteMap} {p q : Prop}
    (h : ComesTo refusals r p) (himp : p → q) : ComesTo refusals r q := by
  cases refusals with
  | nil => exact himp h
  | cons first rest => exact h

variable (settings root lost) in
/-- A directory is listed with all that is below it: the walk fails with the first refusal there, or it
    comes to what it comes to with the files below the directory found, in whatever order. -/
def Listed (t : FileTree) (place : Place) (entries : Directory) (refusal : Option String) : Prop :=
  ∀ {rest : List Place} {found : List String} {r : Except Failure RouteMap},
    ComesTo ((Entry.directory entries refusal).refusals settings.ignoredDirs place) r
      (∀ more : List String, more.Perm (Discovery.routeFilesIn t settings.routeFileMarker
          settings.ignoredDirs place entries) →
        Yields (Walk.next settings root lost) t (.listing rest (found ++ more)) r) →
    Yields (Walk.next settings root lost) t (.listing (place :: rest) found) r

/-- The directories among some entries are listed with all that is below them. -/
theorem yields_directories {place : Place} {entries : Directory}
    (h : ∀ name inner refusal, (name, .directory inner refusal) ∈ entries →
      Listed settings root lost t (place ++ [name]) inner refusal) {rest : List Place}
    {found : List String} {r : Except Failure RouteMap}
    (hrest : ComesTo (Directory.refusals settings.ignoredDirs place entries) r
      (∀ more : List String, more.Perm (entries.flatMap fun e =>
          belowAt t settings.routeFileMarker settings.ignoredDirs (place ++ [e.1]) e.1 e.2) →
        Yields (Walk.next settings root lost) t (.listing rest (found ++ more)) r)) :
    Yields (Walk.next settings root lost) t (.listing
      ((entries.flatMap fun e => directoryAt settings.ignoredDirs (place ++ [e.1]) e.1 e.2) ++ rest)
      found) r := by
  induction entries generalizing found with
  | nil => simpa using hrest [] (.refl _)
  | cons e entries ih =>
    have hlater : ∀ name inner refusal, (name, .directory inner refusal) ∈ entries →
        Listed settings root lost t (place ++ [name]) inner refusal := fun name inner refusal hmem =>
      h name inner refusal (List.mem_cons_of_mem _ hmem)
    obtain ⟨name, entry⟩ := e
    rw [Directory.refusals, comesTo_append] at hrest
    simp only [List.flatMap_cons] at hrest ⊢
    -- An entry that is not looked into leaves the others.
    have pass : (if settings.ignoredDirs.contains name then []
          else entry.refusals settings.ignoredDirs (place ++ [name])) = [] →
        directoryAt settings.ignoredDirs (place ++ [name]) name entry = [] →
        belowAt t settings.routeFileMarker settings.ignoredDirs (place ++ [name]) name entry = [] →
        Yields (Walk.next settings root lost) t (.listing
          ((directoryAt settings.ignoredDirs (place ++ [name]) name entry ++
            entries.flatMap fun e => directoryAt settings.ignoredDirs (place ++ [e.1]) e.1 e.2) ++ rest)
          found) r := fun hrefusals hdirectory hbelow => by
      rw [hrefusals, hbelow] at hrest
      rw [hdirectory]
      exact ih hlater hrest
    cases entry with
    | file content => exact pass (ite_self _) rfl rfl
    | link target => exact pass (ite_self _) rfl rfl
    | directory inner refusal =>
      by_cases hseen : settings.ignoredDirs.contains name = true
      · exact pass (if_pos hseen) (if_pos hseen) (by rw [belowAt, Discovery.routeFilesAt, if_pos hseen])
      · have hbelow : belowAt t settings.routeFileMarker settings.ignoredDirs (place ++ [name]) name
            (.directory inner refusal) = Discovery.routeFilesIn t settings.routeFileMarker
              settings.ignoredDirs (place ++ [name]) inner := by
          rw [belowAt, Discovery.routeFilesAt, if_neg hseen]
        rw [if_neg hseen] at hrest
        rw [directoryAt, if_neg hseen]
        refine h name inner refusal (List.mem_cons_self ..) (hrest.imp fun hothers more hmore => ?_)
        refine ih hlater (hothers.imp fun hrest more' hmore' => ?_)
        rw [List.append_assoc]
        refine hrest _ (.append ?_ hmore')
        rwa [hbelow]

/-- **A directory is listed with all that is below it**, at any depth. -/
theorem listed {entry : Entry} {names links : String → Prop} (h : entry.Built names links) :
    ∀ {entries : Directory} {refusal : Option String}, entry = .directory entries refusal →
      ∀ {place : Place}, t.at? place = some (.directory entries refusal) →
        Listed settings root lost t place entries refusal := by
  induction h with
  | file content => intro entries refusal he; cases he
  | link target => intro entries refusal he; cases he
  | @directory entries refusal hnodup hnames hbuilt ih =>
    intro entries' refusal' he place hat rest found r hrest
    cases he
    rw [Entry.refusals_directory, comesTo_append] at hrest
    cases refusal with
    | some reason =>
      refine .now ?_
      rw [Walk.next, hat, show r = _ from hrest]
    | none =>
      have hothers : ComesTo (Directory.refusals settings.ignoredDirs place entries) r _ := hrest
      refine .later (by rw [Walk.next, hat])
        (yields_directories ?_ (hothers.imp fun hrest more hmore => ?_))
      · intro name inner refusal hmem
        refine ih _ hmem rfl ?_
        rw [Discovery.at?_below hat, Entry.at?_directory (List.cons_ne_nil name []), Directory.at?_cons,
          (Directory.lookup_eq_some_iff hnodup).2 hmem]
        rfl
      · rw [List.append_assoc]
        refine hrest _ ?_
        rw [Discovery.routeFilesIn_eq]
        simp only [routeFilesAt_eq]
        exact ((List.Perm.refl _).append hmore).trans (List.flatMap_append_perm entries _ _)

/-- **A walk does what a scan does**, if the tree stays as it is. -/
theorem yields_walk (h : t.Distinct) :
    Yields (Walk.next settings root lost) t .starting (scanOf settings root t) := by
  unfold scanOf
  rw [outcome_routeMap, Discovery.find_eq]
  cases hp : t.placeOf root with
  | error e => exact .now (by rw [Walk.next, hp])
  | ok place =>
    cases hat : t.at? place with
    | none => exact .now (by simp only [Walk.next, hp, hat])
    | some entry =>
      cases entry with
      | file content => exact .now (by simp only [Walk.next, hp, hat])
      | link target => exact .now (by simp only [Walk.next, hp, hat])
      | directory entries refusal =>
        refine .later (by simp only [Walk.next, hp, hat]; rfl) ?_
        have hbuilt := (Entry.Built.at? h ((t.at?_root place).trans hat)).1
        refine listed hbuilt rfl hat ?_
        simp only [hat]
        cases (Entry.directory entries refusal).refusals settings.ignoredDirs place with
        | cons first refusals => rfl
        | nil =>
          intro more hmore
          refine .later (by rw [List.nil_append, Walk.next]) ?_
          rw [Discovery.sorted_eq_of_perm hmore]
          simp only [outcome_oneByOne]
          exact yields_reading _ []

variable (settings root lost)

/-- The scanner that walks through a project. -/
def walker : Scanner settings root where
  State := Walk
  start := .starting
  step := Walk.next settings root lost
  still _ := yields_walk

end RouteAtlas.Scan
