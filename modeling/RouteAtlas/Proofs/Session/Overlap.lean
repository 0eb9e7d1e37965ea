/-
  RouteAtlas: rebuilds that overlap.

  Clients change files of a project, and then each of them asks for a rebuild.  A rebuild takes a lock,
  scans the project step by step, stores the map and gives the lock back.  The clients take turns in any
  order, so that files change and other clients wait while a scan is under way.

  * `World` is the project with its clients, `World.step` the turn of one client, and `World.Turn` says
    what a turn can be;
  * `World.Exclusive`: only the client that has the lock is inside a rebuild;
  * `World.Settled`: once no change is left, a scan that is under way comes to the result of a scan of the
    project as it stands, or the last scan that was stored had it;
  * `no_lost_update`: when all rebuilds have returned, the map is that of the project as it stands.
-/
import RouteAtlas.Proofs.Scan.Stepwise
import RouteAtlas.Proofs.Session.Freshness

namespace RouteAtlas

open RouteAtlas.Recording RouteAtlas.Scan RouteAtlas.Work

/-! ## Clients -/

/-- What a client is at. -/
inductive Phase (σ : Type) where
  /-- Changes are left; without any the client waits for the lock. -/
  | changing (left : List (FilePath × FileChange))
  | scanning (state : σ)
  | scanned (result : Except Failure RouteMap)
  | stored (result : Except Failure RouteMap)
  | returned (result : Except Failure RouteMap)

namespace Phase

variable {σ : Type}

/-- The client has not taken the lock yet. -/
def Pending : Phase σ → Prop
  | changing _ => True
  | _ => False

/-- The client has the lock. -/
def Inside : Phase σ → Prop
  | scanning _ | scanned _ | stored _ => True
  | _ => False

/-- The scan of the client that is not stored yet: what it is at, or what it resulted in. -/
def scan? : Phase σ → Option (σ ⊕ Except Failure RouteMap)
  | scanning state => some (.inl state)
  | scanned result => some (.inr result)
  | _ => none

end Phase

/-- A project with clients. -/
structure World {settings : Settings} {root : FilePath} (scanner : Scanner settings root) (ι : Type) where
  tree : FileTree
  /-- The last good map. -/
  cached : Option RouteMap
  /-- Who has the lock. -/
  holder : Option ι
  phase : ι → Phase scanner.State

namespace World

variable {settings : Settings} {root : FilePath} {scanner : Scanner settings root} {ι : Type}
  [DecidableEq ι]

/-- All clients are before their first change. -/
def start (scanner : Scanner settings root) (tree : FileTree) (cached : Option RouteMap)
    (changes : ι → List (FilePath × FileChange)) : World scanner ι :=
  { tree, cached, holder := none, phase := fun i => .changing (changes i) }

/-- A client goes on to a phase. -/
def goTo (w : World scanner ι) (i : ι) (p : Phase scanner.State) : World scanner ι :=
  { w with phase := Function.update w.phase i p }

/-- The turn of a client.  Who finds the lock taken waits, and who has returned does nothing. -/
def step (w : World scanner ι) (i : ι) : World scanner ι :=
  match w.phase i with
  | .changing ((path, change) :: left) =>
    { w with tree := ((change.work path).run.run w.tree).2 }.goTo i (.changing left)
  | .changing [] =>
    match w.holder with
    | none => { w with holder := some i }.goTo i (.scanning scanner.start)
    | some _ => w
  | .scanning state =>
    match scanner.step w.tree state with
    | .inl next => w.goTo i (.scanning next)
    | .inr result => w.goTo i (.scanned result)
  | .scanned result => { w with cached := lastGood w.cached [result] }.goTo i (.stored result)
  | .stored result => { w with holder := none }.goTo i (.returned result)
  | .returned _ => w

/-- The scan that is stored in the turn of a client, if one is. -/
def storedBy (w : World scanner ι) (i : ι) : List (Except Failure RouteMap) :=
  match w.phase i with
  | .scanned result => [result]
  | _ => []

/-- The world after the turns of some clients. -/
def run (w : World scanner ι) (schedule : List ι) : World scanner ι :=
  schedule.foldl step w

/-- The scans that are stored in the turns of some clients, in their order. -/
def storedOver : World scanner ι → List ι → List (Except Failure RouteMap)
  | _, [] => []
  | w, i :: schedule => w.storedBy i ++ storedOver (w.step i) schedule

/-- The trees that are there in the turns of some clients. -/
def treesOver : World scanner ι → List ι → List FileTree
  | _, [] => []
  | w, i :: schedule => w.tree :: treesOver (w.step i) schedule

variable {w w' : World scanner ι} {i j : ι} {p : Phase scanner.State}
  {scans stored : List (Except Failure RouteMap)}

@[simp] theorem goTo_tree : (w.goTo i p).tree = w.tree := rfl
@[simp] theorem goTo_cached : (w.goTo i p).cached = w.cached := rfl
@[simp] theorem goTo_holder : (w.goTo i p).holder = w.holder := rfl
@[simp] theorem goTo_self : (w.goTo i p).phase i = p := Function.update_self ..

theorem goTo_other (h : j ≠ i) : (w.goTo i p).phase j = w.phase j := Function.update_of_ne h ..

/-! ## Turns -/

/-- What the turn of a client can be: the world after it, and the scan that it stores. -/
inductive Turn (w : World scanner ι) (i : ι) :
    World scanner ι → List (Except Failure RouteMap) → Prop
  | change {path : FilePath} {change : FileChange} {left : List (FilePath × FileChange)} :
      w.phase i = .changing ((path, change) :: left) →
      Turn w i ({ w with tree := ((change.work path).run.run w.tree).2 }.goTo i (.changing left)) []
  | lock : w.phase i = .changing [] → w.holder = none →
      Turn w i ({ w with holder := some i }.goTo i (.scanning scanner.start)) []
  | look {state next : scanner.State} : w.phase i = .scanning state →
      scanner.step w.tree state = .inl next → Turn w i (w.goTo i (.scanning next)) []
  | finish {state : scanner.State} {result : Except Failure RouteMap} :
      w.phase i = .scanning state → scanner.step w.tree state = .inr result →
      Turn w i (w.goTo i (.scanned result)) []
  | store {result : Except Failure RouteMap} : w.phase i = .scanned result →
      Turn w i ({ w with cached := lastGood w.cached [result] }.goTo i (.stored result)) [result]
  | release {result : Except Failure RouteMap} : w.phase i = .stored result →
      Turn w i ({ w with holder := none }.goTo i (.returned result)) []
  | idle : ¬ (w.phase i).Inside → Turn w i w []

theorem turn_step (w : World scanner ι) (i : ι) : Turn w i (w.step i) (w.storedBy i) := by
  unfold step storedBy
  cases hp : w.phase i with
  | changing left =>
    cases left with
    | nil =>
      cases hh : w.holder with
      | none => exact .lock hp hh
      | some j => exact .idle (by simp [hp, Phase.Inside])
    | cons first left => exact .change hp
  | scanning state =>
    simp only
    cases hs : scanner.step w.tree state with
    | inl next => exact .look hp hs
    | inr result => exact .finish hp hs
  | scanned result => exact .store hp
  | stored result => exact .release hp
  | returned result => exact .idle (by simp [hp, Phase.Inside])

/-! ## The lock -/

/-- Only the client that has the lock is inside a rebuild. -/
def Exclusive (w : World scanner ι) : Prop :=
  ∀ i, w.holder = some i ↔ (w.phase i).Inside

theorem Exclusive.goTo (h : w.Exclusive) (hp : p.Inside ↔ (w.phase i).Inside) :
    (w.goTo i p).Exclusive := by
  intro j
  by_cases hj : j = i
  · subst hj
    rw [goTo_holder, goTo_self, hp]
    exact h j
  · rw [goTo_holder, goTo_other hj]
    exact h j

theorem Exclusive.turn (h : w.Exclusive) (ht : Turn w i w' scans) : w'.Exclusive := by
  cases ht with
  | change hp => exact goTo (w := { w with tree := _ }) h (by simp [hp, Phase.Inside])
  | lock hp hfree =>
    intro j
    by_cases hj : j = i
    · subst hj
      simp [Phase.Inside]
    · have hout : ¬ (w.phase j).Inside := fun hin => by
        rw [(h j).2 hin] at hfree
        cases hfree
      rw [goTo_other hj]
      simpa [Ne.symm hj] using hout
  | look hp hs => exact h.goTo (by simp [hp, Phase.Inside])
  | finish hp hs => exact h.goTo (by simp [hp, Phase.Inside])
  | store hp => exact goTo (w := { w with cached := _ }) h (by simp [hp, Phase.Inside])
  | release hp =>
    have hheld : w.holder = some i := (h i).2 (by simp [hp, Phase.Inside])
    intro j
    by_cases hj : j = i
    · subst hj
      simp [Phase.Inside]
    · have hout : ¬ (w.phase j).Inside := fun hin => by
        rw [(h j).2 hin] at hheld
        exact hj (Option.some.inj hheld)
      rw [goTo_other hj]
      simpa using hout
  | idle hp => exact h

/-! ## The project as it stands -/

/-- What a client has of a scan comes to the result of a scan of a tree. -/
def Right (t : FileTree) : Phase scanner.State → Prop
  | .scanning state => Yields scanner.step t state (scanOf settings root t)
  | .scanned result => result = scanOf settings root t
  | _ => True

/-- Once no change is left, a scan that is under way comes to the result of a scan of the tree as it
    stands; and if none is under way, the last one that was stored had it. -/
def Settled (w : World scanner ι) (stored : List (Except Failure RouteMap)) : Prop :=
  (∀ i, ¬ (w.phase i).Pending) → (∀ i, Right w.tree (w.phase i)) ∧
    ((∃ i, ((w.phase i).scan?).isSome) ∨ stored.getLast? = some (scanOf settings root w.tree))

theorem not_pending_of_goTo (hnone : ∀ j, ¬ ((w.goTo i p).phase j).Pending)
    (hi : ¬ (w.phase i).Pending) (j : ι) : ¬ (w.phase j).Pending := by
  by_cases hj : j = i
  · rwa [hj]
  · rw [← goTo_other hj]
    exact hnone j

theorem right_goTo {t : FileTree} (h : ∀ j, j ≠ i → Right t (w.phase j)) (hp : Right t p) (j : ι) :
    Right t ((w.goTo i p).phase j) := by
  by_cases hj : j = i
  · rw [hj, goTo_self]
    exact hp
  · rw [goTo_other hj]
    exact h j hj

theorem right_of_not_inside {t : FileTree} (h : ¬ p.Inside) : Right t p := by
  cases p with
  | changing left => trivial
  | scanning state => exact absurd trivial h
  | scanned result => exact absurd trivial h
  | stored result => trivial
  | returned result => trivial

/-- **A turn leaves a world settled.**  A client that takes the lock when no change is left starts to
    scan the tree as it stands, and nobody else is inside. -/
theorem Settled.turn (hx : w.Exclusive) (hd : w.tree.Distinct) (h : w.Settled stored)
    (ht : Turn w i w' scans) : w'.Settled (stored ++ scans) := by
  intro hnone
  have hnot : ¬ (w'.phase i).Pending := hnone i
  cases ht with
  | change hp =>
    rw [goTo_self] at hnot
    exact absurd trivial hnot
  | lock hp hfree =>
    have hout : ∀ j, ¬ (w.phase j).Inside := fun j hin => by
      rw [(hx j).2 hin] at hfree
      cases hfree
    refine ⟨right_goTo (fun j _ => right_of_not_inside (hout j)) (scanner.still w.tree hd),
      Or.inl ⟨i, ?_⟩⟩
    rw [goTo_self]
    rfl
  | look hp hs =>
    obtain ⟨hright, -⟩ := h (not_pending_of_goTo hnone (by simp [hp, Phase.Pending]))
    have hi : Right w.tree (w.phase i) := hright i
    rw [hp] at hi
    refine ⟨right_goTo (fun j _ => hright j) (Yields.next hi hs), Or.inl ⟨i, ?_⟩⟩
    rw [goTo_self]
    rfl
  | finish hp hs =>
    obtain ⟨hright, -⟩ := h (not_pending_of_goTo hnone (by simp [hp, Phase.Pending]))
    have hi : Right w.tree (w.phase i) := hright i
    rw [hp] at hi
    refine ⟨right_goTo (fun j _ => hright j) (Yields.result hi hs), Or.inl ⟨i, ?_⟩⟩
    rw [goTo_self]
    rfl
  | @store result hp =>
    obtain ⟨hright, -⟩ := h (not_pending_of_goTo hnone (by simp [hp, Phase.Pending]))
    have hi : Right w.tree (w.phase i) := hright i
    rw [hp] at hi
    refine ⟨right_goTo (fun j _ => hright j) trivial, Or.inr ?_⟩
    rw [List.getLast?_concat]
    exact congrArg some hi
  | release hp =>
    obtain ⟨hright, hlast⟩ := h (not_pending_of_goTo hnone (by simp [hp, Phase.Pending]))
    refine ⟨right_goTo (fun j _ => hright j) trivial, ?_⟩
    rw [List.append_nil]
    refine hlast.imp_left ?_
    rintro ⟨j, hbusy⟩
    have hj : j ≠ i := by
      rintro rfl
      simp [hp, Phase.scan?] at hbusy
    exact ⟨j, by rwa [goTo_other hj]⟩
  | idle hp =>
    rw [List.append_nil]
    exact h hnone

/-! ## What scans have read -/

/-- A scan that has read some trees, one in each step, has come this far. -/
inductive Reached (scanner : Scanner settings root) :
    List FileTree → scanner.State ⊕ Except Failure RouteMap → Prop
  | start : Reached scanner [] (.inl scanner.start)
  | step {trees : List FileTree} {state : scanner.State} (t : FileTree) :
      Reached scanner trees (.inl state) → Reached scanner (trees ++ [t]) (scanner.step t state)

/-- A scan has read trees that were there, one after the other, and has come this far. -/
def HasRead (scanner : Scanner settings root) (seen : List FileTree)
    (scan : scanner.State ⊕ Except Failure RouteMap) : Prop :=
  ∃ trees, trees.Sublist seen ∧ Reached scanner trees scan

theorem HasRead.more {seen : List FileTree} {scan : scanner.State ⊕ Except Failure RouteMap}
    (h : HasRead scanner seen scan) (t : FileTree) : HasRead scanner (seen ++ [t]) scan := by
  obtain ⟨trees, hsub, hreached⟩ := h
  exact ⟨trees, hsub.trans (List.sublist_append_left ..), hreached⟩

theorem HasRead.step {seen : List FileTree} {state : scanner.State}
    (h : HasRead scanner seen (.inl state)) (t : FileTree) :
    HasRead scanner (seen ++ [t]) (scanner.step t state) := by
  obtain ⟨trees, hsub, hreached⟩ := h
  exact ⟨trees ++ [t], hsub.append (.refl _), hreached.step t⟩

/-- Every scan that is not stored yet has read trees that were there. -/
def Reading (w : World scanner ι) (seen : List FileTree) : Prop :=
  ∀ i scan, (w.phase i).scan? = some scan → HasRead scanner seen scan

theorem Reading.goTo {seen : List FileTree} (h : w.Reading seen) (t : FileTree)
    (hp : ∀ scan, p.scan? = some scan → HasRead scanner (seen ++ [t]) scan) :
    (w.goTo i p).Reading (seen ++ [t]) := by
  intro j scan hscan
  by_cases hj : j = i
  · rw [hj, goTo_self] at hscan
    exact hp scan hscan
  · rw [goTo_other hj] at hscan
    exact (h j scan hscan).more t

theorem Reading.turn {seen : List FileTree} (h : w.Reading seen) (ht : Turn w i w' scans) :
    w'.Reading (seen ++ [w.tree]) := by
  cases ht with
  | change hp => exact goTo (w := { w with tree := _ }) h w.tree fun _ hs => nomatch hs
  | lock hp hfree =>
    refine goTo (w := { w with holder := _ }) h w.tree ?_
    rintro _ ⟨⟩
    exact ⟨[], List.nil_sublist _, .start⟩
  | look hp hs =>
    refine h.goTo w.tree ?_
    rintro _ ⟨⟩
    exact hs ▸ (h i _ (by rw [hp]; rfl)).step w.tree
  | finish hp hs =>
    refine h.goTo w.tree ?_
    rintro _ ⟨⟩
    exact hs ▸ (h i _ (by rw [hp]; rfl)).step w.tree
  | store hp => exact goTo (w := { w with cached := _ }) h w.tree fun _ hs => nomatch hs
  | release hp => exact goTo (w := { w with holder := _ }) h w.tree fun _ hs => nomatch hs
  | idle hp => exact fun j scan hs => (h j scan hs).more w.tree

/-! ## All turns -/

/-- What holds at every moment, when some scans have been stored and some trees have been there. -/
structure Sound (before : Option RouteMap) (stored : List (Except Failure RouteMap))
    (seen : List FileTree) (w : World scanner ι) : Prop where
  distinct : w.tree.Distinct
  exclusive : w.Exclusive
  settled : w.Settled stored
  reading : w.Reading seen
  cached : w.cached = lastGood before stored
  completed : ∀ result ∈ stored, HasRead scanner seen (.inr result)

variable {before : Option RouteMap} {seen : List FileTree}

theorem Sound.turn (h : w.Sound before stored seen) (ht : Turn w i w' scans) :
    w'.Sound before (stored ++ scans) (seen ++ [w.tree]) where
  distinct := by
    cases ht with
    | @change path change left hp => exact change.distinct path w.tree h.distinct
    | lock | look | finish | store | release | idle => exact h.distinct
  exclusive := h.exclusive.turn ht
  settled := h.settled.turn h.exclusive h.distinct ht
  reading := h.reading.turn ht
  cached := by
    cases ht with
    | store hp => rw [goTo_cached, lastGood_append, h.cached]
    | change | lock | look | finish | release | idle => rw [List.append_nil]; exact h.cached
  completed := by
    intro result hmem
    rcases List.mem_append.1 hmem with hmem | hmem
    · exact (h.completed result hmem).more w.tree
    · cases ht with
      | store hp =>
        rw [List.mem_singleton.1 hmem]
        exact (h.reading i _ (by rw [hp]; rfl)).more w.tree
      | change | lock | look | finish | release | idle => cases hmem

theorem Sound.run (h : w.Sound before stored seen) (schedule : List ι) :
    (w.run schedule).Sound before (stored ++ w.storedOver schedule)
      (seen ++ w.treesOver schedule) := by
  induction schedule generalizing w stored seen with
  | nil => simpa [World.run, storedOver, treesOver] using h
  | cons i schedule ih =>
    have hrest := ih (h.turn (turn_step w i))
    rwa [List.append_assoc, List.append_assoc] at hrest

omit [DecidableEq ι] in
/-- Before the first turn everything is left to be done. -/
theorem sound_start [Nonempty ι] {tree : FileTree} (hd : tree.Distinct)
    (changes : ι → List (FilePath × FileChange)) :
    (start scanner tree before changes).Sound before [] [] where
  distinct := hd
  exclusive i := by simp [start, Phase.Inside]
  settled hnone := absurd trivial (hnone (Classical.arbitrary ι))
  reading i scan hscan := nomatch hscan
  cached := rfl
  completed := by simp

/-! ## Clients that are let alone -/

@[simp] theorem goTo_goTo {q : Phase scanner.State} : (w.goTo i p).goTo i q = w.goTo i q := by
  unfold goTo
  simp only [Function.update_idem]

theorem run_append (w : World scanner ι) (schedule more : List ι) :
    w.run (schedule ++ more) = (w.run schedule).run more :=
  List.foldl_append

/-- A scan that is let alone comes to its result. -/
theorem exists_scanned {state : scanner.State} {result : Except Failure RouteMap}
    (h : Yields scanner.step w.tree state result) (hp : w.phase i = .scanning state) :
    ∃ turns : List ι, (∀ j ∈ turns, j = i) ∧ w.run turns = w.goTo i (.scanned result) := by
  generalize htree : w.tree = tree at h
  induction h generalizing w with
  | @now state result hs =>
    refine ⟨[i], by simp, ?_⟩
    show w.step i = _
    unfold step
    simp only [hp, htree, hs]
  | @later state next result hs _ ih =>
    have hstep : w.step i = w.goTo i (.scanning next) := by
      unfold step
      simp only [hp, htree, hs]
    obtain ⟨turns, hturns, hrun⟩ := ih (w := w.goTo i (.scanning next)) goTo_self htree
    refine ⟨i :: turns, by simpa using hturns, ?_⟩
    show (w.step i).run turns = _
    rw [hstep, hrun, goTo_goTo]

theorem step_scanned {result : Except Failure RouteMap} (hp : w.phase i = .scanned result) :
    w.step i = { w with cached := lastGood w.cached [result] }.goTo i (.stored result) := by
  unfold step
  simp only [hp]

theorem step_stored {result : Except Failure RouteMap} (hp : w.phase i = .stored result) :
    w.step i = { w with holder := none }.goTo i (.returned result) := by
  unfold step
  simp only [hp]

/-- A client that finds the lock free and is let alone does a whole rebuild. -/
theorem exists_rebuilt (hd : w.tree.Distinct) (hp : w.phase i = .changing []) (hfree : w.holder = none) :
    ∃ turns : List ι, (∀ j ∈ turns, j = i) ∧ w.run turns =
      { w with cached := lastGood w.cached [scanOf settings root w.tree] }.goTo i
        (.returned (scanOf settings root w.tree)) := by
  have hlock : w.step i = { w with holder := some i }.goTo i (.scanning scanner.start) := by
    unfold step
    simp only [hp, hfree]
  obtain ⟨turns, hturns, hrun⟩ := exists_scanned
    (w := { w with holder := some i }.goTo i (.scanning scanner.start)) (scanner.still w.tree hd) goTo_self
  refine ⟨i :: turns ++ [i, i], by simpa [or_imp, forall_and] using hturns, ?_⟩
  rw [run_append]
  show (((w.step i).run turns).step i).step i = _
  rw [hlock, hrun, goTo_goTo, step_scanned goTo_self, step_stored goTo_self]
  unfold goTo
  simp only [Function.update_idem, hfree]

/-- **A client that is let alone does what a session does.**  The rebuild returns what it returns there,
    and leaves the map and the tree that it leaves there. -/
theorem rebuild_alone (s : Service) (scanner : Scanner s.session.settings s.session.root)
    (w : World scanner ι) (htree : w.tree = s.tree) (hcached : w.cached = s.session.cached)
    (hd : w.tree.Distinct) (hp : w.phase i = .changing []) (hfree : w.holder = none) :
    ∃ turns : List ι, (∀ j ∈ turns, j = i) ∧
      (w.run turns).phase i = .returned (Session.rebuild.run.run s).1 ∧
      (w.run turns).cached = (Session.rebuild.run.run s).2.session.cached ∧
      (w.run turns).tree = (Session.rebuild.run.run s).2.tree := by
  obtain ⟨turns, hturns, hrun⟩ := exists_rebuilt hd hp hfree
  obtain ⟨journal, hrebuild⟩ := Session.rebuild_run s
  have hscan : scanOf s.session.settings s.session.root w.tree = s.scan := by
    rw [htree]
    rfl
  refine ⟨turns, hturns, ?_, ?_, ?_⟩
  · rw [hrun, goTo_self, hrebuild, hscan]
  · rw [hrun, hrebuild, goTo_cached, hscan, hcached]
    rfl
  · rw [hrun, hrebuild]
    exact htree

/-- A client that is let alone makes its changes and rebuilds. -/
theorem exists_returned (hd : w.tree.Distinct) (hfree : w.holder = none)
    {left : List (FilePath × FileChange)} (hp : w.phase i = .changing left) :
    ∃ turns result, (w.run turns).phase i = .returned result ∧ (w.run turns).holder = none ∧
      (w.run turns).tree.Distinct ∧ ∀ j, j ≠ i → (w.run turns).phase j = w.phase j := by
  induction left generalizing w with
  | nil =>
    obtain ⟨turns, -, hrun⟩ := exists_rebuilt hd hp hfree
    refine ⟨turns, scanOf settings root w.tree, ?_, ?_, ?_, fun j hj => ?_⟩ <;> rw [hrun]
    · exact goTo_self
    · exact hfree
    · exact hd
    · exact goTo_other hj
  | cons first left ih =>
    obtain ⟨path, change⟩ := first
    have hstep : w.step i =
        { w with tree := ((change.work path).run.run w.tree).2 }.goTo i (.changing left) := by
      unfold step
      simp only [hp]
    obtain ⟨turns, result, hr, hholder, hdistinct, hother⟩ := ih
      (w := { w with tree := ((change.work path).run.run w.tree).2 }.goTo i (.changing left))
      (change.distinct path w.tree hd) hfree goTo_self
    rw [← hstep] at hr hholder hdistinct hother
    refine ⟨i :: turns, result, hr, hholder, hdistinct, fun j hj => ?_⟩
    exact (hother j hj).trans (hstep ▸ goTo_other hj)

/-- The turn of a client leaves the others where they are. -/
theorem Turn.other (ht : Turn w i w' scans) (hj : j ≠ i) : w'.phase j = w.phase j := by
  cases ht with
  | change | lock | look | finish | store | release => exact goTo_other hj
  | idle => rfl

/-- Who has returned has returned for good. -/
theorem returned_run {result : Except Failure RouteMap} (schedule : List ι)
    (h : w.phase i = .returned result) : (w.run schedule).phase i = .returned result := by
  induction schedule generalizing w with
  | nil => exact h
  | cons j schedule ih =>
    refine ih ?_
    by_cases hj : i = j
    · subst hj
      unfold step
      simp only [h]
    · rw [(turn_step w j).other hj, h]

/-- **All rebuilds can return**: the clients can come one after the other. -/
theorem exists_all_returned {clients : List ι} (hnodup : clients.Nodup) (hd : w.tree.Distinct)
    (hfree : w.holder = none) (hp : ∀ i ∈ clients, ∃ left, w.phase i = .changing left) :
    ∃ schedule, ∀ i ∈ clients, ∃ result, (w.run schedule).phase i = .returned result := by
  induction clients generalizing w with
  | nil => exact ⟨[], by simp⟩
  | cons i clients ih =>
    obtain ⟨⟨left, hleft⟩, hrest⟩ := List.forall_mem_cons.1 hp
    obtain ⟨hfirst, hnodup⟩ := List.nodup_cons.1 hnodup
    obtain ⟨turns, result, hr, hholder, hdistinct, hother⟩ := exists_returned hd hfree hleft
    obtain ⟨schedule, hall⟩ := ih hnodup hdistinct hholder fun j hj => by
      rw [hother j fun he => hfirst (he ▸ hj)]
      exact hrest j hj
    refine ⟨turns ++ schedule, ?_⟩
    rw [run_append]
    exact List.forall_mem_cons.2 ⟨⟨result, returned_run schedule hr⟩, hall⟩

end World

theorem lastGood_of_last {before : Option RouteMap} {scans : List (Except Failure RouteMap)}
    {map : RouteMap} (h : scans.getLast? = some (.ok map)) : lastGood before scans = some map := by
  obtain ⟨earlier, rfl⟩ := List.getLast?_eq_some_iff.1 h
  rw [lastGood_append]
  rfl

/-- **No update is lost.**  At least one client changes files of a project, step by step and in any way, and
    then asks for a rebuild, and they take turns in any order.  At every moment the map is that of the
    last scan that was completed and succeeded, or the one from before, and each completed scan is what
    came of reading trees that were there, one after the other.  Once all rebuilds have returned, the
    last scan that was completed is one of the project as it stands, so that the map is that of the
    project as it stands, if this can be scanned. -/
theorem no_lost_update {settings : Settings} {root : FilePath} (scanner : Scanner settings root)
    {ι : Type} [DecidableEq ι] [Nonempty ι] (tree : FileTree) (hd : tree.Distinct)
    (before : Option RouteMap) (changes : ι → List (FilePath × FileChange)) (schedule : List ι) :
    let first := World.start scanner tree before changes
    let last := first.run schedule
    last.cached = lastGood before (first.storedOver schedule) ∧
    (∀ result ∈ first.storedOver schedule,
      World.HasRead scanner (first.treesOver schedule) (.inr result)) ∧
    ((∀ i, ∃ result, last.phase i = .returned result) →
      (first.storedOver schedule).getLast? = some (scanOf settings root last.tree) ∧
      ∀ map, scanOf settings root last.tree = .ok map → last.cached = some map) := by
  intro first last
  have hstart : first.Sound before [] [] := World.sound_start hd changes
  have h := hstart.run schedule
  rw [List.nil_append, List.nil_append] at h
  refine ⟨h.cached, h.completed, fun hreturned => ?_⟩
  have hlast : (first.storedOver schedule).getLast? = some (scanOf settings root last.tree) := by
    have hnone : ∀ i, ¬ (last.phase i).Pending := fun i => by
      obtain ⟨result, hr⟩ := hreturned i
      simp [hr, Phase.Pending]
    refine (h.settled hnone).2.resolve_left ?_
    rintro ⟨i, hscan⟩
    obtain ⟨result, hr⟩ := hreturned i
    rw [show (first.run schedule).phase i = .returned result from hr] at hscan
    cases hscan
  refine ⟨hlast, fun map hmap => ?_⟩
  rw [hmap] at hlast
  exact h.cached.trans (lastGood_of_last hlast)

/-- One client writes a route file, and another one removes it. -/
def writesAndRemoves : Bool → List (FilePath × FileChange)
  | false => [(⟨"/", ["src", "a+server.ts"]⟩, .write .empty)]
  | true => [(⟨"/", ["src", "a+server.ts"]⟩, .remove)]

/-- The failure of a scan that finds a directory gone which it was about to list. -/
def lostDirectory (place : Place) : Failure :=
  .scan (.noRoot (.refused place.text "No such file or directory"))

/-- The clients of a project without files. -/
def writerAndRemover : World (walker {} (.ofText "/src") lostDirectory) Bool :=
  .start _ emptyProject.tree none writesAndRemoves

/-- The file is removed when the first scan has found it and has not read it yet, so that this scan
    fails; the other client waits until then. -/
def removedInBetween : List Bool :=
  [false, false, false, false, false, true, true, false, false, false,
    true, true, true, true, true, true, true]

theorem no_lost_update_removed :
    emptyProject.tree.Distinct ∧
    (writerAndRemover.run removedInBetween).phase false =
      .returned (.error (.scan (.unreadable "/src/a+server.ts"))) ∧
    (writerAndRemover.run removedInBetween).phase true = .returned (.ok []) ∧
    (writerAndRemover.run removedInBetween).cached = some [] := by
  have hd : emptyProject.tree.Distinct := by
    refine .directory (by simp [emptyProject]) (fun _ _ => trivial) fun e he => ?_
    obtain rfl := List.mem_singleton.1 he
    exact .directory (by simp) (by simp) (by simp)
  have hfirst : (writerAndRemover.run removedInBetween).phase false =
      .returned (.error (.scan (.unreadable "/src/a+server.ts"))) := by cbv
  have hsecond : (writerAndRemover.run removedInBetween).phase true = .returned (.ok []) := by cbv
  have hscan : scanOf {} (.ofText "/src") (writerAndRemover.run removedInBetween).tree = .ok [] := by cbv
  obtain ⟨-, -, hreturned⟩ := no_lost_update (walker {} (.ofText "/src") lostDirectory)
    emptyProject.tree hd none writesAndRemoves removedInBetween
  have hall : ∀ i, ∃ result, (writerAndRemover.run removedInBetween).phase i = .returned result :=
    Bool.forall_bool.2 ⟨⟨_, hfirst⟩, ⟨_, hsecond⟩⟩
  exact ⟨hd, hfirst, hsecond, (hreturned hall).2 [] hscan⟩

end RouteAtlas
