/-
  RouteAtlas: configured methods that no route can have.

  Settings name the methods of handlers, and any names can be configured; routes have one of four methods.
  A handler of any other name stops the work with a failure that is no error of the scan.

  * `unroutable? settings root` is the first configured method that a module handles and no route has;
  * `tableOf_fails_iff` says when the table of a module fails, whatever methods are configured;
  * `analyze_fails` and `routeMap_fails`: a file and a scan fail with an error of the scan, or with a
    method that no route has; `analyze_unknownMethod_iff` and `routeMap_unknownMethod_iff` say when they
    fail with the latter.
-/
import RouteAtlas.Proofs.Scan.Together

namespace RouteAtlas.Analysis

open RouteAtlas.Code RouteAtlas.Handler RouteAtlas.Recording

/-! ## Modules -/

/-- The first of some methods that is handled and that no route has. -/
def unroutableIn (exported : Declarations) (words : List String) : Option String :=
  words.find? fun word => (handler? exported word).isSome && (Method.ofWord? word).isNone

/-- The first configured method that a module handles and no route has. -/
def unroutable? (settings : Settings) (root : Node) : Option String :=
  unroutableIn (exports root) settings.methods

/-- If routes can have all configured methods, there is none. -/
theorem unroutable?_none {settings : Settings} (root : Node)
    (hm : ∀ word ∈ settings.methods, (Method.ofWord? word).isSome) : unroutable? settings root = none := by
  refine List.find?_eq_none.2 fun word hw => ?_
  simp [Option.isSome_iff_ne_none.1 (hm word hw)]

section
variable {settings : Settings} (limit : Nat) (file : String) (root : Node)

/-- Where the place of the file is known, the methods fail with the first one that no route has. -/
theorem addMethods_error_iff {path : String} (hpath : placeOf settings file = .ok path)
    (exported : Declarations) (f : Failure) :
    ∀ (words : List String) (progress : Progress),
      (progress.path = none ∨ progress.path = some path) →
      (outcome (words.foldlM (addMethod settings limit file root exported) progress) = .error f ↔
        ∃ m, unroutableIn exported words = some m ∧ f = .unknownMethod m)
  | [], progress, _ => by
    constructor
    · exact nofun
    · rintro ⟨m, hm, -⟩
      cases hm
  | word :: words, progress, hp => by
    have hknown : outcome (pathOf settings file progress.path) = .ok path := by
      rcases hp with hp | hp <;> rw [hp]
      · exact hpath
      · rfl
    unfold unroutableIn
    rw [List.foldlM_cons, outcome_bind _ fun p =>
      steady_foldlM (steady_addMethod settings limit file root exported) words p]
    cases hh : handler? exported word with
    | none =>
      rw [outcome_addMethod_none settings limit file root hh, List.find?_cons_of_neg (by simp [hh])]
      exact addMethods_error_iff hpath exported f words progress hp
    | some d =>
      cases hw : Method.ofWord? word with
      | none =>
        rw [outcome_addMethod_handled settings limit file root hh, hknown,
          List.find?_cons_of_pos (by simp [hh, hw])]
        simp [Except.bind, Except.map, outcome_routeOf_unknown settings limit file root hw, eq_comm]
      | some method =>
        rw [outcome_addMethod_some settings limit file root hh hw, hknown,
          List.find?_cons_of_neg (by simp [hw])]
        exact addMethods_error_iff hpath exported f words _ (Or.inr rfl)

/-- **The table of a module fails** with a configured method that no route has, or where the place of its
    file is refused. -/
theorem tableOf_fails_iff (f : Failure) :
    outcome (tableOf settings limit file root) = .error f ↔
      (∃ path m, placeOf settings file = .ok path ∧ unroutable? settings root = some m ∧
        f = .unknownMethod m) ∨
      placeOf settings file = .error f ∧ HasHandler (exports root) settings.methods := by
  cases hp : placeOf settings file with
  | error e =>
    obtain ⟨hfail, hempty⟩ := outcome_tableOf_refused limit root hp
    by_cases hh : HasHandler (exports root) settings.methods
    · simp [hfail hh, hh]
    · simp [hempty hh, hh]
  | ok path =>
    have hmethods := addMethods_error_iff limit file root hp (exports root) f settings.methods {}
      (Or.inl rfl)
    have htable : outcome (tableOf settings limit file root) = .error f ↔
        outcome (settings.methods.foldlM (addMethod settings limit file root (exports root)) {}) =
          .error f := by
      unfold tableOf
      rw [outcome_bind _ fun _ => steady_pure _]
      cases outcome (settings.methods.foldlM (addMethod settings limit file root (exports root)) {})
        with
      | error e => simp [Except.bind]
      | ok progress => simp [Except.bind, outcome]
    rw [htable, hmethods]
    simp [unroutable?]

end

/-! ## Files -/

section
variable {t : FileTree} {settings : Settings} {limit : Nat} {file : String} {f : Failure}

/-- A file that cannot be read fails with an error of the scan. -/
theorem readFile_error (h : outcome (readFile t file) = .error f) : ∃ e, f = .scan e := by
  by_cases hs : ∃ source, HasSource t file source
  · obtain ⟨source, hs⟩ := hs
    rw [outcome_readFile hs] at h
    cases hr : readModule (Dialect.ofFile file) source with
    | error fault => rw [hr] at h; cases h; exact ⟨_, rfl⟩
    | ok root => rw [hr] at h; cases h
  · rw [outcome_readFile_unreadable fun source hsource => hs ⟨source, hsource⟩] at h
    cases h
    exact ⟨_, rfl⟩

/-- The module of a file has a handler of a method that no route has, and the place of the file is
    known. -/
def Unroutable (t : FileTree) (settings : Settings) (file m : String) : Prop :=
  ∃ root path, outcome (readFile t file) = .ok root ∧ placeOf settings file = .ok path ∧
    unroutable? settings root = some m

/-- A file fails with an error of the scan, or with a method that no route has. -/
theorem analyze_fails (h : outcome (analyze t settings file limit) = .error f) :
    (∃ e, f = .scan e) ∨ ∃ m, f = .unknownMethod m ∧ Unroutable t settings file m := by
  rw [outcome_analyze] at h
  cases hread : outcome (readFile t file) with
  | error e =>
    rw [hread] at h
    cases h
    exact .inl (readFile_error hread)
  | ok root =>
    rw [hread] at h
    obtain ⟨path, m, hp, hm, rfl⟩ | ⟨hp, -⟩ := (tableOf_fails_iff limit file root f).1 h
    · exact .inr ⟨m, rfl, root, path, hread, hp, hm⟩
    · exact .inl ⟨_, ((placeOf_error_iff settings file f).1 hp).2.2⟩

/-- **A file fails with a method that no route has** exactly if its module has a handler of it. -/
theorem analyze_unknownMethod_iff (m : String) :
    outcome (analyze t settings file limit) = .error (.unknownMethod m) ↔
      Unroutable t settings file m := by
  constructor
  · intro h
    obtain ⟨e, he⟩ | ⟨m', hm', hun⟩ := analyze_fails h
    · cases he
    · cases hm'
      exact hun
  · rintro ⟨root, path, hread, hp, hm⟩
    rw [outcome_analyze, hread]
    exact (tableOf_fails_iff limit file root _).2 (.inl ⟨path, m, hp, hm, rfl⟩)

end

end RouteAtlas.Analysis

namespace RouteAtlas.Scan

open RouteAtlas.Analysis RouteAtlas.Recording

/-! ## Scans -/

variable {t : FileTree} {settings : Settings} {root : FilePath} {f : Failure}

/-- A scan fails for want of a root, or with the first file that fails. -/
theorem routeMap_error_at_iff : outcome (routeMap t settings root) = .error f ↔
    (∃ e, Discovery.find t root settings.routeFileMarker settings.ignoredDirs = .error e ∧
      f = .scan e) ∨
    ∃ before file after,
      Discovery.find t root settings.routeFileMarker settings.ignoredDirs =
        .ok (before ++ file :: after) ∧
      (∀ g ∈ before, ∃ table, outcome (analyze t settings g) = .ok table) ∧
      outcome (analyze t settings file) = .error f := by
  rw [outcome_routeMap]
  cases hf : Discovery.find t root settings.routeFileMarker settings.ignoredDirs with
  | error e => simp [eq_comm]
  | ok files =>
    simp only [outcome_oneByOne, Except.ok.injEq, reduceCtorEq, false_and, exists_false, false_or]
    rw [← mapM_pair_error_iff]
    cases files.mapM fun file => (outcome (analyze t settings file)).map (Prod.mk file) <;>
      simp [Except.map]

/-- **A scan fails with an error of the scan, or with a method that no route has.** -/
theorem routeMap_fails (h : outcome (routeMap t settings root) = .error f) :
    (∃ e, f = .scan e) ∨ ∃ m, f = .unknownMethod m := by
  obtain ⟨e, -, he⟩ | ⟨_, _, _, -, -, hfile⟩ := routeMap_error_at_iff.1 h
  · exact .inl ⟨e, he⟩
  · exact (analyze_fails hfile).imp_right fun ⟨m, hm, _⟩ => ⟨m, hm⟩

/-- **A scan fails with a method that no route has** exactly if the first file that fails does. -/
theorem routeMap_unknownMethod_iff (m : String) :
    outcome (routeMap t settings root) = .error (.unknownMethod m) ↔
      ∃ before file after,
        Discovery.find t root settings.routeFileMarker settings.ignoredDirs =
          .ok (before ++ file :: after) ∧
        (∀ g ∈ before, ∃ table, outcome (analyze t settings g) = .ok table) ∧
        Unroutable t settings file m := by
  rw [routeMap_error_at_iff]
  simp only [reduceCtorEq, and_false, exists_false, false_or, analyze_unknownMethod_iff]

end RouteAtlas.Scan
