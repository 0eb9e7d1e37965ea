/-
  RouteAtlas: counts and the order of events.

  What is counted depends on the events and not on their order; the samples of a reason, and which
  reason came up first, do depend on it.

  * `Fallback.countIn` is how often a reason is counted, `Metrics.counts` are all counts;
  * `Metrics.counts_record` says what an event makes of them;
  * `Metrics.counts_perm`: the same events in another order give the same counts.
-/
import Mathlib.Data.List.Perm.Basic
import RouteAtlas.Metrics

namespace RouteAtlas

/-! ## Counts -/

/-- What metrics count, the samples and the times apart. -/
@[ext]
structure Counts where
  filesScanned : Nat
  filesWithRoutes : Nat
  routesFound : Int
  scansCompleted : Nat
  scansFailed : Nat
  fallbacks : String → Nat

namespace Counts

/-- The counts after an event. -/
def after (c : Counts) : Event → Counts
  | .file _ routes =>
    { c with
      filesScanned := c.filesScanned + 1
      filesWithRoutes := if routes == 0 then c.filesWithRoutes else c.filesWithRoutes + 1
      routesFound := c.routesFound + routes }
  | .scan failed =>
    if failed then { c with scansFailed := c.scansFailed + 1 }
    else { c with scansCompleted := c.scansCompleted + 1 }
  | .fallback reason _ _ =>
    { c with fallbacks := fun r => if r = reason then c.fallbacks r + 1 else c.fallbacks r }
  | .phase .. | .summary => c

/-- Two events can change places. -/
instance : RightCommutative after where
  right_comm c e e' := by
    cases e <;> cases e' <;> ext <;> simp only [after] <;> grind

end Counts

/-! ## Fallbacks -/

/-- How often a reason is counted. -/
def Fallback.countIn (fallbacks : List Fallback) (reason : String) : Nat :=
  ((fallbacks.find? fun f => f.reason == reason).map Fallback.count).getD 0

/-- A file that is counted for a reason is counted for this one only. -/
theorem Fallback.find?_record (reason file : String) (limit : Int) (r : String) :
    ∀ fallbacks : List Fallback,
      (Fallback.record reason file limit fallbacks).find? (fun f => f.reason == r) =
        if r = reason then
          some (((fallbacks.find? fun f => f.reason == r).getD ⟨reason, 0, []⟩).add file limit)
        else fallbacks.find? fun f => f.reason == r
  | [] => by
    rw [Fallback.record]
    by_cases hr : r = reason
    · rw [if_pos hr, List.find?_cons_of_pos (by simp [hr, Fallback.add])]
      rfl
    · rw [if_neg hr, List.find?_cons_of_neg (by simpa [Fallback.add] using Ne.symm hr)]
  | f :: rest => by
    rw [Fallback.record]
    by_cases hf : f.reason = reason
    · rw [if_pos (by simpa using hf)]
      by_cases hr : r = reason
      · rw [if_pos hr, List.find?_cons_of_pos (by simp [hr, hf, Fallback.add]),
          List.find?_cons_of_pos (by simp [hr, hf])]
        rfl
      · have hne : f.reason ≠ r := fun h => hr (h.symm.trans hf)
        rw [if_neg hr, List.find?_cons_of_neg (by simpa [Fallback.add] using hne),
          List.find?_cons_of_neg (by simpa using hne)]
    · rw [if_neg (by simpa using hf)]
      by_cases hr : f.reason = r
      · have hne : r ≠ reason := fun h => hf (hr.trans h)
        rw [if_neg hne, List.find?_cons_of_pos (by simpa using hr)]
        exact (List.find?_cons_of_pos (by simpa using hr)).symm
      · rw [List.find?_cons_of_neg (by simpa using hr), find?_record reason file limit r rest,
          List.find?_cons_of_neg (by simpa using hr)]

theorem Fallback.countIn_record (reason file : String) (limit : Int) (fallbacks : List Fallback)
    (r : String) : countIn (Fallback.record reason file limit fallbacks) r =
      if r = reason then countIn fallbacks r + 1 else countIn fallbacks r := by
  unfold countIn
  rw [find?_record]
  split
  · cases fallbacks.find? fun f => f.reason == r <;> rfl
  · rfl

namespace Metrics

/-- All counts. -/
def counts (m : Metrics) : Counts :=
  { filesScanned := m.filesScanned
    filesWithRoutes := m.filesWithRoutes
    routesFound := m.routesFound
    scansCompleted := m.scansCompleted
    scansFailed := m.scansFailed
    fallbacks := Fallback.countIn m.fallbacks }

/-- What an event makes of the counts. -/
theorem counts_record (m : Metrics) (e : Event) : (m.record e).counts = m.counts.after e := by
  cases e with
  | file seconds routes => rfl
  | scan failed => cases failed <;> rfl
  | fallback reason file limit =>
    exact congrArg _ (funext fun r => Fallback.countIn_record reason file limit m.fallbacks r)
  | phase name seconds => rfl
  | summary => rfl

theorem counts_foldl (m : Metrics) (events : List Event) :
    (events.foldl record m).counts = events.foldl Counts.after m.counts := by
  induction events generalizing m with
  | nil => rfl
  | cons e events ih => rw [List.foldl_cons, List.foldl_cons, ih, counts_record]

/-- **The same events in another order give the same counts.** -/
theorem counts_perm {events happened : List Event} (h : happened.Perm events) (m : Metrics) :
    (happened.foldl record m).counts = (events.foldl record m).counts := by
  rw [counts_foldl, counts_foldl, h.foldl_eq]

end Metrics

end RouteAtlas
