/-
  RouteAtlas: what the analysis of a file results in.

  The analysis records a lot, and neither its result nor what it counts depends on any of it: every step
  is traced.

  * `routeFrom` is the route of a handler, without the record of the work; `routeOf` results in it
    (`outcome_routeOf`);
  * `addMethod_cases` says all that a configured method can do that does not fail;
  * `tableFrom` is the table of a module whose place is known; `outcome_tableOf` is the outcome of
    `tableOf` where the place is known and where it is refused;
  * `FileFault` says which error a file that cannot be analyzed has, and `analyze_error_iff` that
    the analysis fails with just these.
-/
import RouteAtlas.Proofs.Recording
import RouteAtlas.Route.Analysis

namespace RouteAtlas.Analysis

open RouteAtlas.Code RouteAtlas.Handler RouteAtlas.Typing RouteAtlas.Recording

variable (settings : Settings) (limit : Nat) (file : String) (root : Node)

/-! ## One route -/

/-- The types that a handler is shown with; types that nest too deep are not known. -/
def shownTypes (d : FunctionDeclaration) : HandlerTypes :=
  (handlerTypes? settings limit root d).getD ⟨settings.unknownType, none⟩

/-- The route that a handler gives at a place. -/
def routeFrom (path : String) (method : Method) (d : FunctionDeclaration) : Route :=
  let types := shownTypes settings limit root d
  let comments := Doc.adjacentTo d.startLine (Doc.blocksOf root)
  { method
    declaredType := types.declared
    returnType := types.response.getD settings.unknownType
    documentation := Doc.documentation settings.bodyTag comments
    queryParameters := queryParameters settings.queryAccessors d
    bodyType := Doc.bodyType settings.bodyTag comments
    urls := Template.templates path
    path }

theorem traced_handlerTypes (method : String) (d : FunctionDeclaration) :
    Traced (handlerTypes settings limit file method root d) := by
  unfold handlerTypes
  split
  · exact traced_pure _
  · exact (traced_logged _ _).bind fun _ => (traced_fallBack _ _).bind fun _ => traced_pure _

theorem outcome_handlerTypes (method : String) (d : FunctionDeclaration) :
    outcome (handlerTypes settings limit file method root d) =
      .ok (shownTypes settings limit root d) := by
  unfold handlerTypes shownTypes
  cases handlerTypes? settings limit root d <;> rfl

theorem traced_knownResponse (response : Option String) :
    Traced (knownResponse settings file response) := by
  cases response with
  | none => exact (traced_fallBack _ _).bind fun _ => traced_pure _
  | some type => exact traced_pure _

theorem outcome_knownResponse (response : Option String) :
    outcome (knownResponse settings file response) = .ok (response.getD settings.unknownType) := by
  cases response <;> rfl

theorem traced_routeOf (method path : String) (d : FunctionDeclaration) :
    Traced (routeOf settings limit file method path root d) := by
  refine (traced_handlerTypes settings limit file root method d).bind fun types =>
    (traced_knownResponse settings file types.response).bind fun returnType => ?_
  cases Method.ofWord? method with
  | none => exact traced_throw _
  | some m => exact traced_pure _

/-- **The route of a handler is made from the handler, its module and its place alone.** -/
theorem outcome_routeOf {word : String} {method : Method} (h : Method.ofWord? word = some method)
    (path : String) (d : FunctionDeclaration) :
    outcome (routeOf settings limit file word path root d) =
      .ok (routeFrom settings limit root path method d) := by
  unfold routeOf
  simp only [h]
  rw [outcome_bind, outcome_handlerTypes]
  · show outcome (knownResponse settings file (shownTypes settings limit root d).response >>= _) = _
    rw [outcome_bind _ fun _ => steady_pure _, outcome_knownResponse]
    rfl
  · exact fun types => (traced_knownResponse settings file types.response).steady.bind fun _ =>
      steady_pure _

/-- A handler of a method that is not known has no route. -/
theorem outcome_routeOf_unknown {word : String} (h : Method.ofWord? word = none) (path : String)
    (d : FunctionDeclaration) :
    outcome (routeOf settings limit file word path root d) = .error (.unknownMethod word) := by
  unfold routeOf
  simp only [h]
  rw [outcome_bind, outcome_handlerTypes]
  · show outcome (knownResponse settings file (shownTypes settings limit root d).response >>= _) = _
    rw [outcome_bind _ fun _ => steady_throw _, outcome_knownResponse]
    rfl
  · exact fun types => (traced_knownResponse settings file types.response).steady.bind fun _ =>
      steady_throw _

/-! ## The place of a file -/

/-- What the place of a file is found to be. -/
def placeOf : Except Failure String :=
  outcome
    (Location.route settings.routesRootMarker settings.routeFileMarker settings.strictRoutesRoot file)

theorem traced_route (marker fileName : String) (strict : Bool) :
    Traced (Location.route marker fileName strict file) := by
  unfold Location.route
  simp only
  split
  · exact traced_pure _
  · split
    · exact (traced_failing _).bind fun _ => (traced_logged _ _).bind fun _ =>
        (traced_fallBack _ _).bind fun _ => traced_pure _
    · exact (traced_pure _).bind fun _ => (traced_logged _ _).bind fun _ =>
        (traced_fallBack _ _).bind fun _ => traced_pure _

/-- The place of a file is refused where the routes root must be in its path and is not. -/
theorem placeOf_error_iff (e : Failure) :
    placeOf settings file = .error e ↔
      settings.strictRoutesRoot = true ∧
        Location.belowRoot? (Location.plainMarker settings.routesRootMarker)
          (Location.normalChars file.toList) = none ∧
        e = .scan (.outsideRoot file settings.routesRootMarker) := by
  unfold placeOf Location.route
  simp only
  cases hb : Location.belowRoot? (Location.plainMarker settings.routesRootMarker)
      (Location.normalChars file.toList) with
  | some rest => simp [outcome]
  | none =>
    cases settings.strictRoutesRoot with
    | false =>
      simp only [Bool.false_eq_true, false_and, iff_false]
      exact fun h => by cases h
    | true =>
      simp only [true_and]
      constructor
      · intro h; cases h; rfl
      · rintro rfl; rfl

theorem traced_pathOf (known : Option String) : Traced (pathOf settings file known) := by
  cases known with
  | none => exact traced_route file _ _ _
  | some path => exact traced_pure path

/-! ## Tables -/

/-- The method and the handler that a configured method stands for, if the module has it. -/
def handler? (exported : Declarations) (word : String) : Option FunctionDeclaration :=
  implementation? (exported.of word)

/-- Puts the route of a configured method into a table, if the module exports it with a function. -/
def withMethod (path : String) (exported : Declarations) (table : MethodTable) (word : String) :
    MethodTable :=
  match handler? exported word, Method.ofWord? word with
  | some d, some method => table.set method (routeFrom settings limit root path method d)
  | _, _ => table

/-- The table of a module whose file has a given place. -/
def tableFrom (path : String) : MethodTable :=
  settings.methods.foldl (withMethod settings limit root path (exports root)) []

/-- Whether one of some methods is exported with a function. -/
def HasHandler (exported : Declarations) (words : List String) : Prop :=
  ∃ word ∈ words, (handler? exported word).isSome

theorem traced_addMethod (exported : Declarations) (progress : Progress) (word : String) :
    Traced (addMethod settings limit file root exported progress word) := by
  unfold addMethod
  split
  · exact traced_pure _
  · split
    · exact (traced_fallBack _ _).bind fun _ => traced_pure _
    · exact (traced_pathOf settings file _).bind fun _ =>
        (traced_routeOf settings limit file root _ _ _).bind fun _ => traced_pure _

theorem steady_addMethod (exported : Declarations) (progress : Progress) (word : String) :
    Steady (addMethod settings limit file root exported progress word) :=
  (traced_addMethod settings limit file root exported progress word).steady

theorem traced_tableOf : Traced (tableOf settings limit file root) :=
  (traced_foldlM (traced_addMethod settings limit file root _) _ _).bind fun _ => traced_pure _

theorem steady_tableOf : Steady (tableOf settings limit file root) :=
  (traced_tableOf settings limit file root).steady

/-- A method without a handler leaves the table as it is. -/
theorem outcome_addMethod_none {exported : Declarations} {word : String}
    (h : handler? exported word = none) (progress : Progress) :
    outcome (addMethod settings limit file root exported progress word) = .ok progress := by
  unfold handler? at h
  unfold addMethod
  cases hd : exported.of word with
  | nil => rfl
  | cons d ds => rw [hd] at h; simp only [h]; rfl

/-- A method with a handler asks for the place of the file, and puts the route that it has there into
    the table. -/
theorem addMethod_handled {exported : Declarations} {word : String} {d : FunctionDeclaration}
    (h : handler? exported word = some d) (progress : Progress) :
    addMethod settings limit file root exported progress word = (do
      let path ← pathOf settings file progress.path
      let route ← routeOf settings limit file word path root d
      return { table := progress.table.set route.method route, path := some path }) := by
  unfold handler? at h
  unfold addMethod
  cases hd : exported.of word with
  | nil => rw [hd] at h; cases h
  | cons x xs =>
    rw [hd] at h
    simp only [h]

theorem outcome_addMethod_handled {exported : Declarations} {word : String} {d : FunctionDeclaration}
    (h : handler? exported word = some d) (progress : Progress) :
    outcome (addMethod settings limit file root exported progress word) =
      (outcome (pathOf settings file progress.path)).bind fun path =>
        (outcome (routeOf settings limit file word path root d)).map fun route =>
          { table := progress.table.set route.method route, path := some path } := by
  rw [addMethod_handled settings limit file root h, outcome_bind _ fun path =>
    (traced_routeOf settings limit file root word path d).steady.bind fun _ => steady_pure _]
  refine congrArg _ (funext fun path => ?_)
  rw [outcome_bind _ fun _ => steady_pure _]
  cases outcome (routeOf settings limit file word path root d) <;> rfl

theorem outcome_addMethod_some {exported : Declarations} {word : String} {method : Method}
    {d : FunctionDeclaration} (h : handler? exported word = some d)
    (hw : Method.ofWord? word = some method) (progress : Progress) :
    outcome (addMethod settings limit file root exported progress word) =
      (outcome (pathOf settings file progress.path)).map fun path =>
        { table := progress.table.set method (routeFrom settings limit root path method d)
          path := some path } := by
  rw [outcome_addMethod_handled settings limit file root h]
  cases outcome (pathOf settings file progress.path) with
  | error e => rfl
  | ok path =>
    show (outcome (routeOf settings limit file word path root d)).map _ = _
    rw [outcome_routeOf settings limit file root hw]
    rfl

variable {settings limit file root}

/-- **A configured method that does not fail** adds nothing if it has no handler.  If it has one, routes
    can have the method, the place of the file is known, and the route of the handler is put into the
    table. -/
theorem addMethod_cases {exported : Declarations} {word : String} {p q : Progress}
    (hok : outcome (addMethod settings limit file root exported p word) = .ok q) :
    (handler? exported word = none ∧ q = p) ∨
      ∃ d method path, handler? exported word = some d ∧ Method.ofWord? word = some method ∧
        outcome (pathOf settings file p.path) = .ok path ∧
        q = ⟨p.table.set method (routeFrom settings limit root path method d), some path⟩ := by
  cases hh : handler? exported word with
  | none =>
    rw [outcome_addMethod_none settings limit file root hh] at hok
    cases hok
    exact .inl ⟨rfl, rfl⟩
  | some d =>
    rw [outcome_addMethod_handled settings limit file root hh] at hok
    cases hp : outcome (pathOf settings file p.path) with
    | error e => rw [hp] at hok; cases hok
    | ok path =>
      rw [hp] at hok
      cases hw : Method.ofWord? word with
      | none =>
        simp only [Except.bind] at hok
        rw [outcome_routeOf_unknown settings limit file root hw] at hok
        cases hok
      | some method =>
        simp only [Except.bind] at hok
        rw [outcome_routeOf settings limit file root hw] at hok
        cases hok
        exact .inr ⟨d, method, path, rfl, rfl, rfl, rfl⟩

/-- Where a module has a table, its configured methods have been looked at in turn. -/
theorem exists_progress {table : MethodTable} (hok : outcome (tableOf settings limit file root) = .ok table) :
    ∃ p : Progress, p.table = table ∧
      outcome (settings.methods.foldlM (addMethod settings limit file root (exports root)) {}) = .ok p := by
  obtain ⟨p, hp, htable⟩ := exists_of_outcome_bind (fun _ => steady_pure _) hok
  exact ⟨p, Except.ok.inj htable, hp⟩

variable (limit root)

/-- Where the place of the file is known, every method is looked at in turn. -/
theorem outcome_addMethods {path : String} (hpath : placeOf settings file = .ok path)
    (exported : Declarations) :
    ∀ (words : List String) (progress : Progress),
      (∀ word ∈ words, (Method.ofWord? word).isSome) →
      (progress.path = none ∨ progress.path = some path) →
      ∃ known, outcome (words.foldlM (addMethod settings limit file root exported) progress) =
        .ok ⟨words.foldl (withMethod settings limit root path exported) progress.table, known⟩
  | [], progress, _, _ => ⟨progress.path, rfl⟩
  | word :: words, progress, hm, hp => by
    obtain ⟨method, hw⟩ := Option.isSome_iff_exists.1 (hm word (by simp))
    have hm' : ∀ w ∈ words, (Method.ofWord? w).isSome := fun w h => hm w (by simp [h])
    have hknown : outcome (pathOf settings file progress.path) = .ok path := by
      rcases hp with hp | hp <;> rw [hp]
      · exact hpath
      · rfl
    rw [List.foldlM_cons, outcome_bind _ fun p =>
      steady_foldlM (steady_addMethod settings limit file root exported) words p]
    cases hh : handler? exported word with
    | none =>
      rw [outcome_addMethod_none settings limit file root hh]
      simpa [withMethod, hh, Except.bind] using
        outcome_addMethods hpath exported words progress hm' hp
    | some d =>
      rw [outcome_addMethod_some settings limit file root hh hw, hknown]
      simpa [withMethod, hh, hw, Except.map, Except.bind] using
        outcome_addMethods hpath exported words
          ⟨progress.table.set method (routeFrom settings limit root path method d), some path⟩ hm'
          (Or.inr rfl)

/-- Where the place of the file is refused, the first method with a handler fails. -/
theorem outcome_addMethods_refused {e : Failure} (hpath : placeOf settings file = .error e)
    (exported : Declarations) :
    ∀ words : List String,
      (HasHandler exported words →
        outcome (words.foldlM (addMethod settings limit file root exported) {}) = .error e) ∧
      (¬ HasHandler exported words →
        outcome (words.foldlM (addMethod settings limit file root exported) {}) = .ok {})
  | [] => ⟨fun ⟨_, h, _⟩ => (List.not_mem_nil h).elim, fun _ => rfl⟩
  | word :: words => by
    rw [List.foldlM_cons, outcome_bind _ fun p =>
      steady_foldlM (steady_addMethod settings limit file root exported) words p]
    cases hh : handler? exported word with
    | none =>
      have hiff : HasHandler exported (word :: words) ↔ HasHandler exported words := by
        simp [HasHandler, hh]
      rw [outcome_addMethod_none settings limit file root hh, hiff]
      exact outcome_addMethods_refused hpath exported words
    | some d =>
      have hhas : HasHandler exported (word :: words) := ⟨word, by simp, by simp [hh]⟩
      have hrefused : outcome (pathOf settings file (none : Option String)) = .error e := hpath
      rw [outcome_addMethod_handled settings limit file root hh, hrefused]
      exact ⟨fun _ => rfl, fun h => absurd hhas h⟩

/-- **The table of a module** at a place that is known. -/
theorem outcome_tableOf {path : String} (hm : ∀ word ∈ settings.methods, (Method.ofWord? word).isSome)
    (hpath : placeOf settings file = .ok path) :
    outcome (tableOf settings limit file root) = .ok (tableFrom settings limit root path) := by
  obtain ⟨known, h⟩ :=
    outcome_addMethods limit root hpath (exports root) settings.methods {} hm (Or.inl rfl)
  unfold tableOf
  rw [outcome_bind _ fun _ => steady_pure _, h]
  rfl

/-- At a place that is refused a module with a handler fails, and one without has no routes. -/
theorem outcome_tableOf_refused {e : Failure} (hpath : placeOf settings file = .error e) :
    (HasHandler (exports root) settings.methods →
      outcome (tableOf settings limit file root) = .error e) ∧
    (¬ HasHandler (exports root) settings.methods →
      outcome (tableOf settings limit file root) = .ok []) := by
  obtain ⟨hfail, hempty⟩ :=
    outcome_addMethods_refused limit root hpath (exports root) settings.methods
  unfold tableOf
  rw [outcome_bind _ fun _ => steady_pure _]
  exact ⟨fun h => by rw [hfail h]; rfl, fun h => by rw [hempty h]; rfl⟩

/-! ## Files -/

variable {limit root} {t : FileTree}

/-- A file can be read, and holds a text. -/
def HasSource (t : FileTree) (file source : String) : Prop :=
  ∃ bytes, t.read (.ofText file) = .ok bytes ∧ Text.decoded bytes = some source

/-- The faults of a file that cannot be analyzed. -/
inductive FileFault (t : FileTree) (settings : Settings) (file : String) : Failure → Prop
  /-- It cannot be read, or holds no text. -/
  | unreadable : (∀ source, ¬ HasSource t file source) →
      FileFault t settings file (.scan (.unreadable file))
  /-- Its text is no module. -/
  | malformed {source : String} {fault : Fault} : HasSource t file source →
      readModule (Dialect.ofFile file) source = .error fault →
      FileFault t settings file (.scan (.malformed file fault.line))
  /-- Its module has a handler, and the routes root is not in its path, where it must be. -/
  | outsideRoot {source : String} {root : Node} : HasSource t file source →
      readModule (Dialect.ofFile file) source = .ok root →
      HasHandler (exports root) settings.methods → settings.strictRoutesRoot = true →
      Location.belowRoot? (Location.plainMarker settings.routesRootMarker)
        (Location.normalChars file.toList) = none →
      FileFault t settings file (.scan (.outsideRoot file settings.routesRootMarker))

theorem HasSource.unique {source source' : String} (h : HasSource t file source)
    (h' : HasSource t file source') : source = source' := by
  obtain ⟨bytes, hr, hd⟩ := h
  obtain ⟨bytes', hr', hd'⟩ := h'
  rw [hr] at hr'; cases hr'
  rw [hd] at hd'; exact Option.some.inj hd'

theorem traced_readFile (file : String) : Traced (readFile t file) := by
  unfold readFile
  split
  · exact traced_failing _
  · split
    · exact traced_failing _
    · split
      · exact traced_failing _
      · exact traced_pure _

theorem outcome_readFile_unreadable (h : ∀ source, ¬ HasSource t file source) :
    outcome (readFile t file) = .error (.scan (.unreadable file)) := by
  unfold readFile
  cases hr : t.read (.ofText file) with
  | error e => rfl
  | ok bytes =>
    cases hd : Text.decoded bytes with
    | none => simp only [hd]; rfl
    | some source => exact absurd ⟨bytes, hr, hd⟩ (h source)

theorem outcome_readFile {source : String} (h : HasSource t file source) :
    outcome (readFile t file) =
      match readModule (Dialect.ofFile file) source with
      | .error fault => .error (.scan (.malformed file fault.line))
      | .ok root => .ok root := by
  obtain ⟨bytes, hr, hd⟩ := h
  unfold readFile
  simp only [hr, hd]
  cases readModule (Dialect.ofFile file) source <;> rfl

theorem outcome_readFile_of_module {source : String} (h : HasSource t file source)
    (hroot : root ∈ (readModule (Dialect.ofFile file) source).toOption) :
    outcome (readFile t file) = .ok root := by
  rw [outcome_readFile h]
  cases hr : readModule (Dialect.ofFile file) source with
  | error fault => rw [hr] at hroot; cases hroot
  | ok module => rw [hr] at hroot; cases hroot; rfl

variable (settings file limit)

theorem traced_analyze : Traced (analyze t settings file limit) :=
  (traced_readFile file).bind fun root => (traced_tableOf settings limit file root).bind fun table =>
    (traced_counted (.file 0 table.length) fun _ => rfl).bind fun _ => traced_pure _

theorem steady_analyze : Steady (analyze t settings file limit) :=
  (traced_analyze settings limit file).steady

/-- The analysis of a file reads the module in it, and makes the table of the module. -/
theorem outcome_analyze : outcome (analyze t settings file limit) =
    (outcome (readFile t file)).bind fun root => outcome (tableOf settings limit file root) := by
  unfold analyze
  rw [outcome_bind _ fun root => (steady_tableOf settings limit file root).bind fun _ =>
    (steady_counted _).bind fun _ => steady_pure _]
  refine congrArg _ (funext fun root => ?_)
  rw [outcome_bind _ fun _ => (steady_counted _).bind fun _ => steady_pure _]
  cases outcome (tableOf settings limit file root) <;> rfl

/-- The analysis of a file depends on nothing in the tree but what is read from the file. -/
theorem analyze_congr {t' : FileTree} (h : t.read (.ofText file) = t'.read (.ofText file)) :
    analyze t settings file limit = analyze t' settings file limit := by
  unfold analyze readFile
  rw [h]

/-- A file without text has no routes. -/
theorem outcome_analyze_blank (h : HasSource t file "") :
    outcome (analyze t settings file limit) = .ok [] := by
  obtain ⟨root, hroot, hexports⟩ : ∃ root, readModule (Dialect.ofFile file) "" = .ok root ∧
      exports root = [] := by
    have hread : ∀ dialect : Dialect,
        (readModule dialect "").toOption.any (fun root => (exports root).isEmpty) = true := by
      intro dialect
      cases dialect <;> decide +kernel
    have h := hread (Dialect.ofFile file)
    cases hr : readModule (Dialect.ofFile file) "" with
    | error fault => rw [hr] at h; cases h
    | ok root => rw [hr] at h; exact ⟨root, rfl, List.isEmpty_iff.1 h⟩
  have hnone : ∀ words : List String,
      outcome (words.foldlM (addMethod settings limit file root []) {}) = .ok {} := by
    intro words
    induction words with
    | nil => rfl
    | cons word words ih =>
      rw [List.foldlM_cons, outcome_bind _ fun p =>
        steady_foldlM (steady_addMethod settings limit file root []) words p]
      exact ih
  rw [outcome_analyze, outcome_readFile h, hroot]
  show outcome (tableOf settings limit file root) = _
  unfold tableOf
  rw [hexports, outcome_bind _ fun _ => steady_pure _, hnone]
  rfl

/-- A file whose text is no module has no table. -/
theorem outcome_analyze_malformed {source : String} {fault : Fault} (h : HasSource t file source)
    (hfault : readModule (Dialect.ofFile file) source = .error fault) :
    outcome (analyze t settings file limit) = .error (.scan (.malformed file fault.line)) := by
  rw [outcome_analyze, outcome_readFile h, hfault]
  rfl

variable {settings}

/-- The table of a module fails only where the place of its file is refused. -/
theorem tableOf_error_iff (hm : ∀ word ∈ settings.methods, (Method.ofWord? word).isSome)
    (root : Node) (e : Failure) :
    outcome (tableOf settings limit file root) = .error e ↔
      HasHandler (exports root) settings.methods ∧ placeOf settings file = .error e := by
  cases hp : placeOf settings file with
  | ok path => rw [outcome_tableOf limit root hm hp]; simp
  | error e' =>
    obtain ⟨hfail, hempty⟩ := outcome_tableOf_refused limit root hp
    by_cases hh : HasHandler (exports root) settings.methods
    · simp [hfail hh, hh]
    · simp [hempty hh, hh]

/-- **The analysis of a file fails exactly with the faults of the file.** -/
theorem analyze_error_iff (hm : ∀ word ∈ settings.methods, (Method.ofWord? word).isSome)
    (e : Failure) :
    outcome (analyze t settings file limit) = .error e ↔ FileFault t settings file e := by
  rw [outcome_analyze]
  by_cases hs : ∃ source, HasSource t file source
  · obtain ⟨source, hs⟩ := hs
    rw [outcome_readFile hs]
    cases hr : readModule (Dialect.ofFile file) source with
    | error fault =>
      constructor
      · intro h; cases h; exact .malformed hs hr
      · rintro (h | ⟨hs', hr'⟩ | ⟨hs', hr', -⟩)
        · exact absurd hs (h source)
        · rw [hs'.unique hs, hr] at hr'; cases hr'; rfl
        · rw [hs'.unique hs, hr] at hr'; cases hr'
    | ok root =>
      show outcome (tableOf settings limit file root) = .error e ↔ _
      rw [tableOf_error_iff limit file hm, placeOf_error_iff]
      constructor
      · rintro ⟨hh, hstrict, hb, rfl⟩; exact .outsideRoot hs hr hh hstrict hb
      · rintro (h | ⟨hs', hr'⟩ | ⟨hs', hr', hh, hstrict, hb⟩)
        · exact absurd hs (h source)
        · rw [hs'.unique hs, hr] at hr'; cases hr'
        · rw [hs'.unique hs, hr] at hr'; cases hr'; exact ⟨hh, hstrict, hb, rfl⟩
  · have hs' : ∀ source, ¬ HasSource t file source := fun source h => hs ⟨source, h⟩
    rw [outcome_readFile_unreadable hs']
    constructor
    · intro h; cases h; exact .unreadable hs'
    · rintro (h | ⟨h, -⟩ | ⟨h, -⟩)
      · rfl
      · exact absurd h (hs' _)
      · exact absurd h (hs' _)

/-! ## A module with a handler -/

variable {file}

/-- A module with a handler. -/
def handlerSource : String := "export function GET() \x7b\x7d"

theorem decoded_handlerSource : Text.decoded handlerSource.toUTF8 = some handlerSource := by
  decide +kernel

/-- The route of this handler at a place. -/
def handlerRoute (path : String) : Route :=
  { method := .get, declaredType := "() => void", returnType := "any", documentation := none
    queryParameters := [], bodyType := none, urls := [path], path }

/-- A file with this module has the route that the module has at its path. -/
theorem outcome_analyze_handler {path : String} (hread : t.read (.ofText file) = .ok handlerSource.toUTF8)
    (h : ∃ root ∈ (readModule (Dialect.ofFile file) handlerSource).toOption,
      outcome (tableOf {} Typing.depthLimit file root) = .ok [(.get, handlerRoute path)]) :
    outcome (analyze t {} file) = .ok [(.get, handlerRoute path)] := by
  obtain ⟨root, hroot, htable⟩ := h
  rw [outcome_analyze, outcome_readFile_of_module ⟨_, hread, decoded_handlerSource⟩ hroot]
  exact htable

end RouteAtlas.Analysis
