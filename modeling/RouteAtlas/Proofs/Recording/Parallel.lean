/-
  RouteAtlas: work that goes in parallel.

  Two pieces of work on things that differ in little do the same step after step, so that both fail or
  neither does, and they count the same.

  * `Parallel related work work'`: both fail, or both result in related things, and from equal counts they
    lead to equal counts; `Agree` is the first half, for results;
  * `Parallel.bind` and `parallel_foldlM`, `parallel_mapM`: steps in parallel make runs in parallel.
-/
import RouteAtlas.Proofs.Metrics
import RouteAtlas.Proofs.Recording

namespace RouteAtlas.Recording

variable {α β γ δ : Type}

/-- Both results are failures, or both are things that are related. -/
def Agree (related : α → β → Prop) : Except Failure α → Except Failure β → Prop
  | .ok a, .ok b => related a b
  | .error _, .error _ => True
  | _, _ => False

/-- Two pieces of work go in parallel: their results agree, and from equal counts they lead to equal
    counts. -/
def Parallel (related : α → β → Prop) (work : Recording α) (work' : Recording β) : Prop :=
  ∀ j k : Journal, j.metrics.counts = k.metrics.counts →
    Agree related (result work j) (result work' k) ∧
      (journal work j).metrics.counts = (journal work' k).metrics.counts

/-! ## Single steps -/

theorem parallel_pure {related : α → β → Prop} {a : α} {b : β} (h : related a b) :
    Parallel related (pure a) (pure b) := fun _ _ hc => ⟨h, hc⟩

theorem parallel_throw {related : α → β → Prop} (e e' : Failure) :
    Parallel related (throw e) (throw e') := fun _ _ hc => ⟨trivial, hc⟩

theorem parallel_failing {related : α → β → Prop} (e e' : ScanError) :
    Parallel related (failing e) (failing e') := parallel_throw _ _

theorem parallel_logged (level : Level) (text text' : String) :
    Parallel Eq (logged level text) (logged level text') := fun _ _ hc => ⟨rfl, hc⟩

/-- Events that count the same are counted in parallel. -/
theorem parallel_counted {step step' : Metrics → Metrics} (e e' : Event)
    (h : ∀ m, step m = m.record e) (h' : ∀ m, step' m = m.record e')
    (hsame : ∀ c : Counts, c.after e = c.after e') : Parallel Eq (counted step) (counted step') := by
  intro j k hc
  refine ⟨rfl, ?_⟩
  show (step j.metrics).counts = (step' k.metrics).counts
  rw [h, h', Metrics.counts_record, Metrics.counts_record, hc, hsame]

/-- Different files are counted in parallel for one reason. -/
theorem parallel_fallBack (reason file file' : String) :
    Parallel Eq (fallBack reason file) (fallBack reason file') :=
  parallel_counted (.fallback reason file sampleLimit) (.fallback reason file' sampleLimit)
    (fun _ => rfl) (fun _ => rfl) fun _ => rfl

/-! ## Several steps -/

theorem Parallel.bind {related : α → β → Prop} {related' : γ → δ → Prop} {work : Recording α}
    {work' : Recording β} {next : α → Recording γ} {next' : β → Recording δ}
    (h : Parallel related work work') (hnext : ∀ a b, related a b → Parallel related' (next a) (next' b)) :
    Parallel related' (work >>= next) (work' >>= next') := by
  intro j k hc
  obtain ⟨hresult, hcounts⟩ := h j k hc
  rw [result_bind, result_bind, journal_bind, journal_bind]
  cases hr : result work j <;> cases hr' : result work' k <;> rw [hr, hr'] at hresult
  · exact ⟨trivial, hcounts⟩
  · exact hresult.elim
  · exact hresult.elim
  · exact hnext _ _ hresult _ _ hcounts

theorem parallel_foldlM {related : β → γ → Prop} {f : β → α → Recording β} {f' : γ → α → Recording γ}
    (hf : ∀ b c a, related b c → Parallel related (f b a) (f' c a)) :
    ∀ (as : List α) {b : β} {c : γ}, related b c → Parallel related (as.foldlM f b) (as.foldlM f' c)
  | [], _, _, h => parallel_pure h
  | a :: as, b, c, h => by
    rw [List.foldlM_cons, List.foldlM_cons]
    exact (hf b c a h).bind fun _ _ hnext => parallel_foldlM hf as hnext

/-- Work in parallel on several things results in two readings of the same list. -/
theorem parallel_mapM (read : δ → β) (read' : δ → γ) {f : α → Recording β} {f' : α → Recording γ} :
    ∀ {as : List α}, (∀ a ∈ as, Parallel (fun b c => ∃ d, b = read d ∧ c = read' d) (f a) (f' a)) →
      Parallel (fun bs cs => ∃ ds : List δ, bs = ds.map read ∧ cs = ds.map read') (as.mapM f) (as.mapM f')
  | [], _ => parallel_pure ⟨[], rfl, rfl⟩
  | a :: as, hf => by
    obtain ⟨hfirst, hrest⟩ := List.forall_mem_cons.1 hf
    rw [List.mapM_cons, List.mapM_cons]
    refine hfirst.bind fun b c ⟨d, hb, hc⟩ => (parallel_mapM read read' hrest).bind fun bs cs ⟨ds, hbs, hcs⟩ => ?_
    exact parallel_pure ⟨d :: ds, by rw [hb, hbs, List.map_cons], by rw [hc, hcs, List.map_cons]⟩

end RouteAtlas.Recording
