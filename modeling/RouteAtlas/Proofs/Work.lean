/-
  RouteAtlas: work that changes a state and may fail.

  * `run_bind`, `run_map` and `run_tryCatch` say what work results in and leaves behind, step by step;
  * `Keeps R work`: the relation `R` holds between the state before work and the state behind it.  If
    it holds over several steps, it is enough that each of them keeps it.
-/
import Mathlib.Order.Defs.Unbundled
import RouteAtlas.Journal

namespace RouteAtlas.Work

variable {ε σ α β : Type}

theorem run_get (s : σ) : (get : ExceptT ε (StateM σ) σ).run.run s = (.ok s, s) := rfl

theorem run_bind (work : ExceptT ε (StateM σ) α) (next : α → ExceptT ε (StateM σ) β) (s : σ) :
    (work >>= next).run.run s =
      match work.run.run s with
      | (.ok a, s') => (next a).run.run s'
      | (.error e, s') => (.error e, s') := by
  rw [ExceptT.run_bind, StateT.run_bind]
  rcases work.run.run s with ⟨r, s'⟩
  cases r <;> rfl

theorem run_map (work : ExceptT ε (StateM σ) α) (f : α → β) (s : σ) :
    (do return f (← work) : ExceptT ε (StateM σ) β).run.run s =
      ((work.run.run s).1.map f, (work.run.run s).2) := by
  rw [run_bind]
  rcases work.run.run s with ⟨r, s'⟩
  cases r <;> rfl

theorem run_tryCatch (work : ExceptT ε (StateM σ) α) (handle : ε → ExceptT ε (StateM σ) α) (s : σ) :
    (tryCatch work handle).run.run s =
      match work.run.run s with
      | (.ok a, s') => (.ok a, s')
      | (.error e, s') => (handle e).run.run s' := by
  show (ExceptT.tryCatch work handle).run.run s = _
  unfold ExceptT.tryCatch
  rw [ExceptT.run_mk, StateT.run_bind]
  show (do let p ← work.run.run s; _) = _
  rcases work.run.run s with ⟨r, s'⟩
  cases r <;> rfl

/-! ## What work keeps -/

/-- A relation holds between the state before work and the state behind it, also where it fails. -/
def Keeps (R : σ → σ → Prop) (work : ExceptT ε (StateM σ) α) : Prop :=
  ∀ s, R s (work.run.run s).2

section
variable {R : σ → σ → Prop} [IsPreorder σ R] {work : ExceptT ε (StateM σ) α}

theorem keeps_pure (a : α) : Keeps R (pure a : ExceptT ε (StateM σ) α) := fun s => refl_of R s

theorem keeps_throw (e : ε) : Keeps R (throw e : ExceptT ε (StateM σ) α) := fun s => refl_of R s

theorem keeps_get : Keeps R (get : ExceptT ε (StateM σ) σ) := fun s => refl_of R s

theorem Keeps.bind {next : α → ExceptT ε (StateM σ) β} (h : Keeps R work)
    (hnext : ∀ a, Keeps R (next a)) : Keeps R (work >>= next) := by
  intro s
  have hs := h s
  rw [run_bind]
  rcases hw : work.run.run s with ⟨r, s'⟩
  rw [hw] at hs
  cases r with
  | error e => exact hs
  | ok a => exact trans_of R hs (hnext a s')

theorem Keeps.tryCatch {handle : ε → ExceptT ε (StateM σ) α} (h : Keeps R work)
    (hhandle : ∀ e, Keeps R (handle e)) : Keeps R (tryCatch work handle) := by
  intro s
  have hs := h s
  rw [run_tryCatch]
  rcases hw : work.run.run s with ⟨r, s'⟩
  rw [hw] at hs
  cases r with
  | error e => exact trans_of R hs (hhandle e s')
  | ok a => exact hs

theorem keeps_mapM {f : α → ExceptT ε (StateM σ) β} (hf : ∀ a, Keeps R (f a)) :
    ∀ as : List α, Keeps R (as.mapM f)
  | [] => keeps_pure []
  | a :: as => by
    rw [List.mapM_cons]
    exact (hf a).bind fun _ => (keeps_mapM hf as).bind fun _ => keeps_pure _

theorem keeps_foldlM {f : β → α → ExceptT ε (StateM σ) β} (hf : ∀ b a, Keeps R (f b a)) :
    ∀ (as : List α) (b : β), Keeps R (as.foldlM f b)
  | [], b => keeps_pure b
  | a :: as, b => by
    rw [List.foldlM_cons]
    exact (hf b a).bind fun c => keeps_foldlM hf as c

end

end RouteAtlas.Work
