/-
  RouteAtlas: the files behind the counts.

  Each fallback is counted with the file that it is about, and the first few files are kept as samples.

  * `filesFor reason events` are the files that events count for a reason, in their order;
  * `fallbacks_foldl`: a reason is counted once for each of its files;
  * `samplesOf_foldl`: the samples of a reason are the first of its files, if all events keep the same
    number of them;
  * `mem_reasons_foldl`: the reasons in the metrics are those that there are files for.
-/
import RouteAtlas.Proofs.Metrics

namespace RouteAtlas

/-! ## Files -/

/-- The file that an event counts for a reason. -/
def Event.fileFor? (reason : String) : Event → Option String
  | .fallback given about _ => if given = reason then some about else none
  | _ => none

/-- The files that events count for a reason. -/
def filesFor (reason : String) (events : List Event) : List String :=
  events.filterMap (Event.fileFor? reason)

theorem filesFor_cons (reason : String) (e : Event) (events : List Event) :
    filesFor reason (e :: events) = (e.fileFor? reason).toList ++ filesFor reason events := by
  unfold filesFor
  rw [List.filterMap_cons]
  cases e.fileFor? reason <;> rfl

/-- An event counts one fallback for a reason if it has a file for it, and none otherwise. -/
theorem Counts.fallbacks_after (c : Counts) (e : Event) (reason : String) :
    (c.after e).fallbacks reason = c.fallbacks reason + (e.fileFor? reason).toList.length := by
  cases e with
  | fallback given about limit =>
    by_cases h : given = reason
    · simp [after, Event.fileFor?, h]
    · simp [after, Event.fileFor?, h, Ne.symm h]
  | scan failed => cases failed <;> rfl
  | file seconds routes => rfl
  | phase name seconds => rfl
  | summary => rfl

/-- **A reason is counted once for each of its files.** -/
theorem Counts.fallbacks_foldl (reason : String) : ∀ (events : List Event) (c : Counts),
    (events.foldl after c).fallbacks reason = c.fallbacks reason + (filesFor reason events).length
  | [], c => rfl
  | e :: events, c => by
    rw [List.foldl_cons, fallbacks_foldl reason events, fallbacks_after, filesFor_cons,
      List.length_append, Nat.add_assoc]

/-! ## Samples -/

namespace Metrics

/-- What an event makes of the samples of a reason: its file is added while there are fewer than the
    event keeps. -/
theorem samplesOf_record (m : Metrics) (e : Event) (reason : String) {limit : Nat}
    (h : ∀ given about kept, e = .fallback given about kept → kept = limit) :
    (m.record e).samplesOf reason = m.samplesOf reason ++
      (e.fileFor? reason).toList.take (limit - (m.samplesOf reason).length) := by
  cases e with
  | fallback given about kept =>
    obtain rfl : kept = limit := h given about kept rfl
    show ((Fallback.record given about limit m.fallbacks |>.find? _).map _).getD [] = _
    rw [Fallback.find?_record]
    by_cases hr : reason = given
    · subst hr
      have hadd : ∀ samples : List String,
          (if (samples.length : Int) < limit then samples ++ [about] else samples) =
            samples ++ [about].take (limit - samples.length) := by
        intro samples
        by_cases hlt : samples.length < limit
        · rw [if_pos (by omega), List.take_of_length_le (by simp; omega)]
        · rw [if_neg (by omega), Nat.sub_eq_zero_of_le (by omega), List.take_zero, List.append_nil]
      unfold samplesOf
      cases m.fallbacks.find? fun f => f.reason == reason with
      | none => simpa [Event.fileFor?, Fallback.add] using hadd []
      | some f => simpa [Event.fileFor?, Fallback.add] using hadd f.samples
    · simp [Event.fileFor?, hr, Ne.symm hr, samplesOf]
  | scan failed => cases failed <;> simp [record, Event.fileFor?, countScan, samplesOf]
  | file seconds routes => simp [record, Event.fileFor?, countFile, samplesOf]
  | phase name seconds => simp [record, Event.fileFor?, timePhase, samplesOf]
  | summary => simp [record, Event.fileFor?]

/-- Events keep a number of samples of each reason. -/
def KeepSamples (limit : Nat) (events : List Event) : Prop :=
  ∀ reason about kept, .fallback reason about kept ∈ events → kept = (limit : Int)

/-- **The samples of a reason are the first of its files**, behind those that there were. -/
theorem samplesOf_foldl (reason : String) {limit : Nat} :
    ∀ {events : List Event}, KeepSamples limit events → ∀ m : Metrics,
      (events.foldl record m).samplesOf reason = m.samplesOf reason ++
        (filesFor reason events).take (limit - (m.samplesOf reason).length)
  | [], _, m => by simp [filesFor]
  | e :: events, h, m => by
    have hkept : ∀ given about kept, e = .fallback given about kept → kept = (limit : Int) :=
      fun given about kept he => h given about kept (he ▸ List.mem_cons_self ..)
    have hfirst := samplesOf_record m e reason hkept
    have hrest : KeepSamples limit events := fun given about kept he =>
      h given about kept (List.mem_cons_of_mem _ he)
    rw [List.foldl_cons, samplesOf_foldl reason hrest, hfirst, filesFor_cons, List.take_append,
      List.append_assoc]
    congr 3
    simp only [List.length_append, List.length_take]
    omega

/-! ## Reasons -/

theorem mem_reasons_record (reason given about : String) (limit : Int) :
    ∀ fallbacks : List Fallback,
      reason ∈ (Fallback.record given about limit fallbacks).map Fallback.reason ↔
        reason ∈ fallbacks.map Fallback.reason ∨ given = reason
  | [] => by simp [Fallback.record, Fallback.add, eq_comm]
  | f :: rest => by
    rw [Fallback.record]
    by_cases hf : f.reason = given
    · rw [if_pos (by simpa using hf)]
      simp only [List.map_cons, List.mem_cons, Fallback.add, hf]
      grind
    · rw [if_neg (by simpa using hf), List.map_cons, List.map_cons, List.mem_cons, List.mem_cons,
        mem_reasons_record reason given about limit rest, or_assoc]

/-- **The reasons in the metrics are those that there are files for**, and those that were there. -/
theorem mem_reasons_foldl (reason : String) : ∀ (events : List Event) (m : Metrics),
    reason ∈ (events.foldl record m).fallbacks.map Fallback.reason ↔
      reason ∈ m.fallbacks.map Fallback.reason ∨ filesFor reason events ≠ []
  | [], m => by simp [filesFor]
  | e :: events, m => by
    have hfirst : reason ∈ (m.record e).fallbacks.map Fallback.reason ↔
        reason ∈ m.fallbacks.map Fallback.reason ∨ (e.fileFor? reason).isSome := by
      cases e with
      | fallback given about limit =>
        refine (mem_reasons_record reason given about limit m.fallbacks).trans (or_congr Iff.rfl ?_)
        by_cases h : given = reason <;> simp [Event.fileFor?, h]
      | scan failed => cases failed <;> simp [record, Event.fileFor?, countScan]
      | file seconds routes => simp [record, Event.fileFor?, countFile]
      | phase name seconds => simp [record, Event.fileFor?, timePhase]
      | summary => simp [record, Event.fileFor?]
    rw [List.foldl_cons, mem_reasons_foldl reason events, hfirst, or_assoc, filesFor_cons]
    cases e.fileFor? reason <;> simp

end Metrics

end RouteAtlas
