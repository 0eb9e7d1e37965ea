/-
  RouteAtlas: results of work that records.

  * `Recording.result work j` is what work results in when it starts on the journal `j`;
  * `Recording.Steady` is work whose result does not depend on what was recorded before it;
  * `Recording.outcome` is the result of steady work.  It goes through a sequence of steps and through
    `mapM` (`outcome_bind`, `outcome_mapM`), so that steady work is reasoned about as plain work that
    may fail;
  * `Recording.foldlM_preserves`: what one step of repeated work preserves, all of it does;
  * `Recording.Traced` is steady work that counts the same events whatever was recorded before it.
-/
import RouteAtlas.Journal

namespace RouteAtlas.Recording

variable {α β : Type}

/-- What work results in when it starts on a journal. -/
def result (work : Recording α) (j : Journal) : Except Failure α :=
  (work.run.run j).1

/-- The journal that work leaves behind when it starts on a journal. -/
def journal (work : Recording α) (j : Journal) : Journal :=
  (work.run.run j).2

/-- The result does not depend on what was recorded before. -/
def Steady (work : Recording α) : Prop :=
  ∀ j k : Journal, result work j = result work k

/-- What work results in when nothing was recorded before. -/
def outcome (work : Recording α) : Except Failure α :=
  result work {}

theorem Steady.result_eq {work : Recording α} (h : Steady work) (j : Journal) :
    result work j = outcome work :=
  h j {}

/-! ## Single steps -/

@[simp] theorem result_pure (a : α) (j : Journal) : result (pure a) j = .ok a := rfl

theorem result_bind (work : Recording α) (next : α → Recording β) (j : Journal) :
    result (work >>= next) j =
      (result work j).bind fun a => result (next a) (journal work j) := by
  show ((work >>= next).run.run j).1 = _
  rw [ExceptT.run_bind, StateT.run_bind]
  show _ = ((work.run.run j).1).bind fun a => result (next a) (work.run.run j).2
  rcases work.run.run j with ⟨r, k⟩
  cases r <;> rfl

/-! ## Steady work -/

theorem steady_pure (a : α) : Steady (pure a : Recording α) := fun _ _ => rfl

theorem steady_throw (e : Failure) : Steady (throw e : Recording α) := fun _ _ => rfl

theorem steady_failing (e : ScanError) : Steady (failing e : Recording α) := fun _ _ => rfl

theorem steady_counted (step : Metrics → Metrics) : Steady (counted step) := fun _ _ => rfl

theorem steady_logged (level : Level) (text : String) : Steady (logged level text) :=
  fun _ _ => rfl

theorem Steady.bind {work : Recording α} {next : α → Recording β} (h : Steady work)
    (hnext : ∀ a, Steady (next a)) : Steady (work >>= next) := by
  intro j k
  rw [result_bind, result_bind, h j k]
  cases result work k with
  | error e => rfl
  | ok a => exact hnext a _ _

/-- The outcome of two steps is that of the second one on the outcome of the first. -/
theorem outcome_bind (work : Recording α) {next : α → Recording β}
    (hnext : ∀ a, Steady (next a)) :
    outcome (work >>= next) = (outcome work).bind fun a => outcome (next a) := by
  rw [outcome, result_bind]
  show (outcome work).bind _ = _
  cases outcome work with
  | error e => rfl
  | ok a => exact (hnext a).result_eq _

/-- Where two steps do not fail, neither of them does. -/
theorem exists_of_outcome_bind {work : Recording α} {next : α → Recording β} {b : β}
    (hnext : ∀ a, Steady (next a)) (h : outcome (work >>= next) = .ok b) :
    ∃ a, outcome work = .ok a ∧ outcome (next a) = .ok b := by
  rw [outcome_bind work hnext] at h
  cases hw : outcome work with
  | error e => rw [hw] at h; cases h
  | ok a => rw [hw] at h; exact ⟨a, rfl, h⟩

/-! ## Repeated work -/

/-- Work on several things is the same work if it is the same on each of them. -/
theorem mapM_congr {m : Type → Type} [Monad m] [LawfulMonad m] {f g : α → m β} :
    ∀ {as : List α}, (∀ a ∈ as, f a = g a) → as.mapM f = as.mapM g
  | [], _ => by rw [List.mapM_nil, List.mapM_nil]
  | a :: as, h => by
    rw [List.mapM_cons, List.mapM_cons, h a (by simp),
      mapM_congr fun b hb => h b (List.mem_cons_of_mem _ hb)]

theorem steady_mapM {f : α → Recording β} (hf : ∀ a, Steady (f a)) :
    ∀ as : List α, Steady (as.mapM f)
  | [] => steady_pure []
  | a :: as => by
    rw [List.mapM_cons]
    exact (hf a).bind fun _ => (steady_mapM hf as).bind fun _ => steady_pure _

theorem outcome_mapM {f : α → Recording β} (hf : ∀ a, Steady (f a)) :
    ∀ as : List α, outcome (as.mapM f) = as.mapM fun a => outcome (f a)
  | [] => rfl
  | a :: as => by
    rw [List.mapM_cons, List.mapM_cons,
      outcome_bind _ fun _ => (steady_mapM hf as).bind fun _ => steady_pure _]
    refine congrArg _ (funext fun b => ?_)
    rw [outcome_bind _ fun _ => steady_pure _, outcome_mapM hf as]
    rfl

theorem steady_foldlM {f : β → α → Recording β} (hf : ∀ b a, Steady (f b a)) :
    ∀ (as : List α) (b : β), Steady (as.foldlM f b)
  | [], b => steady_pure b
  | a :: as, b => by
    rw [List.foldlM_cons]
    exact (hf b a).bind fun c => steady_foldlM hf as c

section
variable {f : β → α → Recording β} (hf : ∀ b a, Steady (f b a))
include hf

/-- Where repeated work does not fail, neither the first of it nor the rest of it does. -/
theorem exists_of_outcome_foldlM {a : α} {as : List α} {b c : β}
    (h : outcome ((a :: as).foldlM f b) = .ok c) :
    ∃ next, outcome (f b a) = .ok next ∧ outcome (as.foldlM f next) = .ok c := by
  rw [List.foldlM_cons] at h
  exact exists_of_outcome_bind (steady_foldlM hf as) h

/-- **What one step of repeated work preserves, all of it does**, if it does not fail. -/
theorem foldlM_preserves {P : β → Prop} (hstep : ∀ {b a c}, P b → outcome (f b a) = .ok c → P c) :
    ∀ {as : List α} {b c : β}, P b → outcome (as.foldlM f b) = .ok c → P c
  | [], _, _, hb, h => by
    cases h
    exact hb
  | _ :: _, _, _, hb, h => by
    obtain ⟨_, hfirst, hrest⟩ := exists_of_outcome_foldlM hf h
    exact foldlM_preserves hstep (hstep hb hfirst) hrest

end

/-! ## Traced work -/

theorem journal_bind (work : Recording α) (next : α → Recording β) (j : Journal) :
    journal (work >>= next) j =
      match result work j with
      | .ok a => journal (next a) (journal work j)
      | .error _ => journal work j := by
  show ((work >>= next).run.run j).2 = _
  rw [ExceptT.run_bind, StateT.run_bind]
  show _ = match (work.run.run j).1 with
    | .ok a => ((next a).run.run (work.run.run j).2).2
    | .error _ => (work.run.run j).2
  rcases work.run.run j with ⟨r, k⟩
  cases r <;> rfl

/-- Work counts events: the same ones whatever was recorded before it. -/
def Counting (work : Recording α) (events : List Event) : Prop :=
  ∀ j, (journal work j).metrics = events.foldl Metrics.record j.metrics

/-- Neither the result of work nor the events that it counts depend on what was recorded before it. -/
structure Traced (work : Recording α) : Prop where
  steady : Steady work
  counting : ∃ events, Counting work events

theorem traced_pure (a : α) : Traced (pure a : Recording α) := ⟨steady_pure a, [], fun _ => rfl⟩

theorem traced_throw (e : Failure) : Traced (throw e : Recording α) :=
  ⟨steady_throw e, [], fun _ => rfl⟩

theorem traced_failing (e : ScanError) : Traced (failing e : Recording α) := traced_throw _

theorem traced_logged (level : Level) (text : String) : Traced (logged level text) :=
  ⟨steady_logged level text, [], fun _ => rfl⟩

theorem traced_counted {step : Metrics → Metrics} (e : Event) (h : ∀ m, step m = m.record e) :
    Traced (counted step) :=
  ⟨steady_counted step, [e], fun j => h j.metrics⟩

theorem traced_fallBack (reason file : String) : Traced (fallBack reason file) :=
  traced_counted (.fallback reason file sampleLimit) fun _ => rfl

theorem Counting.bind {work : Recording α} {next : α → Recording β} {events more : List Event} {a : α}
    (hs : Steady work) (h : Counting work events) (hok : outcome work = .ok a)
    (hnext : Counting (next a) more) : Counting (work >>= next) (events ++ more) := by
  intro j
  rw [journal_bind, hs.result_eq, hok, List.foldl_append, ← h j]
  exact hnext _

theorem counting_pure (a : α) : Counting (pure a : Recording α) [] := fun _ => rfl

theorem Counting.map {work : Recording α} {events : List Event} (h : Counting work events) (f : α → β) :
    Counting (do return f (← work)) events := by
  intro j
  rw [journal_bind, ← h j]
  cases result work j <;> rfl

theorem Counting.bind_error {work : Recording α} {events : List Event} {e : Failure} (hs : Steady work)
    (h : Counting work events) (herror : outcome work = .error e) (next : α → Recording β) :
    Counting (work >>= next) events := by
  intro j
  rw [journal_bind, hs.result_eq, herror]
  exact h j

theorem Traced.bind {work : Recording α} {next : α → Recording β} (h : Traced work)
    (hnext : ∀ a, Traced (next a)) : Traced (work >>= next) := by
  refine ⟨h.steady.bind fun a => (hnext a).steady, ?_⟩
  obtain ⟨events, hevents⟩ := h.counting
  cases hw : outcome work with
  | error e => exact ⟨events, hevents.bind_error h.steady hw next⟩
  | ok a =>
    obtain ⟨more, hmore⟩ := (hnext a).counting
    exact ⟨events ++ more, hevents.bind h.steady hw hmore⟩

theorem traced_foldlM {f : β → α → Recording β} (hf : ∀ b a, Traced (f b a)) :
    ∀ (as : List α) (b : β), Traced (as.foldlM f b)
  | [], b => traced_pure b
  | a :: as, b => by
    rw [List.foldlM_cons]
    exact (hf b a).bind fun c => traced_foldlM hf as c

theorem exists_mapM_ok {f : α → Except Failure β} :
    ∀ {as : List α}, (∀ a ∈ as, ∃ b, f a = .ok b) → ∃ bs, as.mapM f = .ok bs
  | [], _ => ⟨[], rfl⟩
  | a :: as, hok => by
    obtain ⟨⟨b, hb⟩, hrest⟩ := List.forall_mem_cons.1 hok
    obtain ⟨bs, hbs⟩ := exists_mapM_ok hrest
    exact ⟨b :: bs, by rw [List.mapM_cons, hb, hbs]; rfl⟩

/-- Where none of them fails, work on several things counts what it counts on each of them. -/
theorem counting_mapM {f : α → Recording β} {events : α → List Event} (hs : ∀ a, Steady (f a))
    (hf : ∀ a, Counting (f a) (events a)) :
    ∀ {as : List α}, (∀ a ∈ as, ∃ b, outcome (f a) = .ok b) →
      Counting (as.mapM f) (as.flatMap events)
  | [], _ => counting_pure []
  | a :: as, hok => by
    obtain ⟨⟨b, hb⟩, hrest⟩ := List.forall_mem_cons.1 hok
    obtain ⟨bs, hbs⟩ : ∃ bs, outcome (as.mapM f) = .ok bs := by
      rw [outcome_mapM hs]
      exact exists_mapM_ok hrest
    rw [List.mapM_cons, List.flatMap_cons]
    refine (hf a).bind (hs a) hb ?_
    have hlast : Counting (as.mapM f >>= fun bs => pure (b :: bs)) (as.flatMap events ++ []) :=
      (counting_mapM hs hf hrest).bind (steady_mapM hs as) hbs (counting_pure _)
    rwa [List.append_nil] at hlast

end RouteAtlas.Recording
