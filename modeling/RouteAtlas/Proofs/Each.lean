/-
  RouteAtlas: work on each of several things.

  * `mapM_eq_some_iff`: work that can fail gives a list exactly if it gives the members of it, one for each
    thing;
  * `mapM_congr₂`, `mapM_mono₂`: work on other things gives the same, or gives what is given, where that on
    each of them does;
  * `exists_mapM_some`: it gives a list if it gives something for each thing.
-/
import Mathlib.Data.List.Forall2

namespace RouteAtlas

section
variable {α β γ : Type} {as : List α} {bs : List β} {cs : List γ}

/-! ## Members that correspond to each other -/

theorem exists_left_of_mem {R : α → β → Prop} (h : List.Forall₂ R as bs) :
    ∀ b ∈ bs, ∃ a ∈ as, R a b := by
  induction h with
  | nil => exact nofun
  | cons hab _ ih =>
    refine List.forall_mem_cons.2 ⟨⟨_, List.mem_cons_self .., hab⟩, fun b hb => ?_⟩
    obtain ⟨a, ha, hR⟩ := ih b hb
    exact ⟨a, List.mem_cons_of_mem _ ha, hR⟩

theorem exists_right_of_mem {R : α → β → Prop} (h : List.Forall₂ R as bs) :
    ∀ a ∈ as, ∃ b ∈ bs, R a b :=
  exists_left_of_mem h.flip

/-! ## Work that can fail -/

variable {f : α → Option γ} {g : β → Option γ}

/-- Work that can fail gives a list exactly if it gives the members of it, one for each thing. -/
theorem mapM_eq_some_iff : as.mapM f = some cs ↔ List.Forall₂ (fun a c => f a = some c) as cs := by
  induction as generalizing cs with
  | nil => exact ⟨fun h => by cases h; exact .nil, fun h => by cases h; rfl⟩
  | cons a as ih =>
    rw [List.mapM_cons]
    constructor
    · intro h
      obtain ⟨c, hc, h⟩ := Option.bind_eq_some_iff.1 h
      obtain ⟨rest, hrest, h⟩ := Option.bind_eq_some_iff.1 h
      cases h
      exact .cons hc (ih.1 hrest)
    · rintro (_ | ⟨hc, hrest⟩)
      rw [hc, ih.2 hrest]
      rfl

theorem exists_mapM_some : ∀ {as : List α}, (∀ a ∈ as, ∃ c, f a = some c) → ∃ cs, as.mapM f = some cs
  | [], _ => ⟨[], rfl⟩
  | a :: as, h => by
    obtain ⟨⟨c, hc⟩, hrest⟩ := List.forall_mem_cons.1 h
    obtain ⟨cs, hcs⟩ := exists_mapM_some hrest
    exact ⟨c :: cs, mapM_eq_some_iff.2 (.cons hc (mapM_eq_some_iff.1 hcs))⟩

/-- Work that cannot fail gives what it gives for each thing. -/
theorem mapM_eq_map {f' : α → γ} (h : ∀ a ∈ as, f a = some (f' a)) : as.mapM f = some (as.map f') :=
  mapM_eq_some_iff.2 (List.forall₂_map_right_iff.2 (List.forall₂_same.2 h))

/-- Where each thing is found again in what it is made into, all of them are. -/
theorem mapM_map_some {make : γ → α} (h : ∀ c, f (make c) = some c) (cs : List γ) :
    (cs.map make).mapM f = some cs :=
  mapM_eq_some_iff.2 (List.forall₂_map_left_iff.2 (List.forall₂_same.2 fun c _ => h c))

theorem mapM_zip (h : as.mapM f = some cs) :
    as.length = cs.length ∧ ∀ entry ∈ as.zip cs, f entry.1 = some entry.2 := by
  obtain ⟨hlength, hall⟩ := List.forall₂_iff_zip.1 (mapM_eq_some_iff.1 h)
  exact ⟨hlength, fun _ hentry => hall hentry⟩

/-- Work on some of the things gives what it gives on each. -/
theorem mapM_filterMap {choose : α → Option β} (h : (as.filterMap choose).mapM g = some cs) :
    cs = as.filterMap fun a => (choose a).bind g := by
  rw [mapM_eq_some_iff] at h
  induction as generalizing cs with
  | nil =>
    cases h
    rfl
  | cons a as ih =>
    rw [List.filterMap_cons] at h ⊢
    cases ha : choose a with
    | none =>
      rw [ha] at h
      exact ih h
    | some b =>
      rw [ha] at h
      obtain _ | ⟨hc, hrest⟩ := h
      rw [Option.bind_some, hc, ← ih hrest]

/-! ## Work on other things -/

/-- Work on other things gives the same where that on each of them does. -/
theorem mapM_congr₂ (h : List.Forall₂ (fun a b => f a = g b) as bs) : as.mapM f = bs.mapM g := by
  induction h with
  | nil => rfl
  | cons heq _ ih => rw [List.mapM_cons, List.mapM_cons, heq, ih]

/-- Work on other things gives what is given where that on each of them does. -/
theorem mapM_mono₂ (h : List.Forall₂ (fun a b => ∀ c, f a = some c → g b = some c) as bs)
    (hcs : as.mapM f = some cs) : bs.mapM g = some cs := by
  rw [mapM_eq_some_iff] at hcs ⊢
  induction h generalizing cs with
  | nil =>
    cases hcs
    exact .nil
  | cons hstep _ ih =>
    obtain _ | ⟨hc, hrest⟩ := hcs
    exact .cons (hstep _ hc) (ih hrest)

theorem mapM_mono {f' : α → Option γ} (h : ∀ a ∈ as, ∀ c, f a = some c → f' a = some c) :
    as.mapM f = some cs → as.mapM f' = some cs :=
  mapM_mono₂ (List.forall₂_same.2 h)

end

end RouteAtlas
