/-
  RouteAtlas: the search for the routes root from the end of a path.

  * `MarkerAt marker path i`: the marker is in the path at an index, and names start and end there;
  * `lastIndex?` is the last index of a marker before a bound, be it in the middle of names;
  * `searchBack` asks for it again and again.  As long as the marker does not stand at the index, the
    search goes on before the last character of what it found, so that what overlaps this is not missed;
  * `searchBack_eq_some_iff` and `searchBack_eq_none_iff`: it finds the last index where the marker stands;
  * `belowRoot?_eq_searchBack`: what follows the routes root in a path is what follows this index.
-/
import RouteAtlas.Proofs.Location

namespace RouteAtlas.Location

open RouteAtlas.Text

/-! ## Backwards -/

/-- The last index of a marker in what stands before a bound. -/
def lastIndex? (marker path : List Char) (stop : Nat) : Option Nat :=
  (List.range (stop + 1)).reverse.find? fun i => (dropStartChars? marker ((path.take stop).drop i)).isSome

/-- Whether a name starts at an index of a path, and one ends behind a marker there. -/
def isWhole (marker path : List Char) (i : Nat) : Bool :=
  (i == 0 || path[i - 1]? == some '/') && isNameEnd (path.drop (i + marker.length))

theorem isSome_dropStartChars?_iff {start cs : List Char} :
    (dropStartChars? start cs).isSome = true ↔ start <+: cs := by
  rw [Option.isSome_iff_exists]
  simp only [dropStartChars?_eq_some_iff]
  exact ⟨fun ⟨rest, h⟩ => ⟨rest, h.symm⟩, fun ⟨rest, h⟩ => ⟨rest, h.symm⟩⟩

section
variable {marker path : List Char} {stop i : Nat}

/-- A marker in what stands before a bound ends there. -/
theorem isSome_drop_take_iff :
    (dropStartChars? marker ((path.take stop).drop i)).isSome = true ∧ i ≤ stop ↔
      marker <+: path.drop i ∧ i + marker.length ≤ stop := by
  rw [isSome_dropStartChars?_iff, List.drop_take, List.prefix_take_iff, and_assoc]
  refine and_congr_right fun _ => ?_
  omega

theorem lastIndex?_eq_some (h : lastIndex? marker path stop = some i) :
    marker <+: path.drop i ∧ i + marker.length ≤ stop ∧
      ∀ k, marker <+: path.drop k → k + marker.length ≤ stop → k ≤ i := by
  obtain ⟨hfound, later, earlier, hsplit, hnot⟩ := List.find?_eq_some_iff_append.1 h
  have hmem : ∀ {k}, k ≤ stop ↔ k ∈ later ++ i :: earlier := by
    intro k
    rw [← hsplit, List.mem_reverse, List.mem_range, Nat.lt_succ_iff]
  have hdown : (later ++ i :: earlier).Pairwise (· > ·) :=
    hsplit ▸ List.pairwise_reverse.2 List.pairwise_lt_range
  obtain ⟨hat, hstop⟩ := isSome_drop_take_iff.1 ⟨hfound, hmem.2 (by simp)⟩
  refine ⟨hat, hstop, fun k hk hle => ?_⟩
  obtain ⟨hkfound, hkstop⟩ := isSome_drop_take_iff.2 ⟨hk, hle⟩
  rcases List.mem_append.1 (hmem.1 hkstop) with hlater | hhere
  · simpa [hkfound] using hnot k hlater
  · rcases List.mem_cons.1 hhere with rfl | hearlier
    · exact Nat.le_refl k
    · exact Nat.le_of_lt ((List.pairwise_cons.1 (List.pairwise_append.1 hdown).2.1).1 k hearlier)

theorem lastIndex?_eq_none (h : lastIndex? marker path stop = none) :
    ∀ k, marker <+: path.drop k → ¬ k + marker.length ≤ stop := by
  intro k hk hle
  obtain ⟨hfound, hstop⟩ := isSome_drop_take_iff.2 ⟨hk, hle⟩
  have hmem : k ∈ (List.range (stop + 1)).reverse := by simpa using Nat.lt_succ_of_le hstop
  exact absurd hfound (by simpa using List.find?_eq_none.1 h k hmem)

end

/-- The last index of a marker with whole names before a bound. -/
def searchBack (marker path : List Char) (stop : Nat) : Option Nat :=
  match h : lastIndex? marker path stop with
  | none => none
  | some i =>
    if isWhole marker path i then some i
    else if i + marker.length ≤ 1 then none
    else searchBack marker path (i + marker.length - 1)
termination_by stop
decreasing_by
  have := (lastIndex?_eq_some h).2.1
  omega

/-- A marker in a path at an index, where names start and end. -/
structure MarkerAt (marker path : List Char) (i : Nat) : Prop where
  found : marker <+: path.drop i
  start : i = 0 ∨ path[i - 1]? = some '/'
  stop : path.drop (i + marker.length) = [] ∨ (path.drop (i + marker.length)).head? = some '/'

theorem markerAt_iff {marker path : List Char} {i : Nat} :
    MarkerAt marker path i ↔ marker <+: path.drop i ∧ isWhole marker path i = true := by
  have hwhole : isWhole marker path i = true ↔ (i = 0 ∨ path[i - 1]? = some '/') ∧
      (path.drop (i + marker.length) = [] ∨ (path.drop (i + marker.length)).head? = some '/') := by
    simp [isWhole, isNameEnd]
  rw [hwhole]
  constructor
  · exact fun h => ⟨h.found, h.start, h.stop⟩
  · rintro ⟨hfound, hstart, hstop⟩
    exact ⟨hfound, hstart, hstop⟩

section
variable {marker path : List Char}

/-- A marker that does not stand at the last index before a bound may stand before the last character of
    what is found there. -/
theorem MarkerAt.before {stop i k : Nat} (h : lastIndex? marker path stop = some i)
    (hnot : ¬ isWhole marker path i = true) (hk : MarkerAt marker path k) (hle : k + marker.length ≤ stop) :
    k + marker.length < i + marker.length := by
  have hlast := (lastIndex?_eq_some h).2.2 k hk.found hle
  have hne : k ≠ i := fun he => hnot (he ▸ (markerAt_iff.1 hk).2)
  omega

/-- What the search finds is the last index where the marker stands. -/
theorem searchBack_eq_some {stop i : Nat} (h : searchBack marker path stop = some i) :
    MarkerAt marker path i ∧ ∀ k, MarkerAt marker path k → k + marker.length ≤ stop → k ≤ i := by
  induction stop using Nat.strongRecOn with
  | ind stop ih =>
    rw [searchBack] at h
    split at h
    · cases h
    · rename_i last hlast
      split at h
      · rename_i hwhole
        obtain rfl := Option.some.inj h
        obtain ⟨hfound, -, hmax⟩ := lastIndex?_eq_some hlast
        exact ⟨markerAt_iff.2 ⟨hfound, hwhole⟩, fun k hk => hmax k hk.found⟩
      · rename_i hnot
        split at h
        · cases h
        · have hstop := (lastIndex?_eq_some hlast).2.1
          obtain ⟨hmarker, hmax⟩ := ih _ (by omega) h
          refine ⟨hmarker, fun k hk hle => hmax k hk ?_⟩
          have := hk.before hlast hnot hle
          omega

/-- A search that finds nothing leaves nothing out. -/
theorem searchBack_eq_none {stop : Nat} (hm : marker ≠ []) (h : searchBack marker path stop = none) :
    ∀ k, MarkerAt marker path k → ¬ k + marker.length ≤ stop := by
  have hpos := List.length_pos_iff.2 hm
  induction stop using Nat.strongRecOn with
  | ind stop ih =>
    rw [searchBack] at h
    split at h
    · rename_i hnone
      exact fun k hk => lastIndex?_eq_none hnone k hk.found
    · rename_i last hlast
      split at h
      · cases h
      · rename_i hnot
        intro k hk hle
        have hbefore := hk.before hlast hnot hle
        split at h
        · omega
        · have hstop := (lastIndex?_eq_some hlast).2.1
          exact ih _ (by omega) h k hk (by omega)

/-- A marker ends within the path. -/
theorem MarkerAt.le_length {k : Nat} (hm : marker ≠ []) (h : MarkerAt marker path k) :
    k + marker.length ≤ path.length := by
  have hpos := List.length_pos_iff.2 hm
  have hle := h.found.length_le
  rw [List.length_drop] at hle
  omega

/-- **The search from the end of a path finds the last index where the marker stands.** -/
theorem searchBack_eq_some_iff (hm : marker ≠ []) {i : Nat} :
    searchBack marker path path.length = some i ↔
      MarkerAt marker path i ∧ ∀ k, MarkerAt marker path k → k ≤ i := by
  constructor
  · intro h
    obtain ⟨hmarker, hmax⟩ := searchBack_eq_some h
    exact ⟨hmarker, fun k hk => hmax k hk (hk.le_length hm)⟩
  · rintro ⟨hmarker, hmax⟩
    cases h : searchBack marker path path.length with
    | none => exact absurd (hmarker.le_length hm) (searchBack_eq_none hm h i hmarker)
    | some last =>
      obtain ⟨hlast, hlater⟩ := searchBack_eq_some h
      exact congrArg some (Nat.le_antisymm (hmax last hlast) (hlater i hmarker (hmarker.le_length hm)))

theorem searchBack_eq_none_iff (hm : marker ≠ []) :
    searchBack marker path path.length = none ↔ ∀ k, ¬ MarkerAt marker path k := by
  refine ⟨fun h k hk => searchBack_eq_none hm h k hk (hk.le_length hm), fun h => ?_⟩
  cases hs : searchBack marker path path.length with
  | none => rfl
  | some i => exact absurd (searchBack_eq_some hs).1 (h i)

/-! ## Forwards -/

/-- Whether a name starts behind a part of a path. -/
def isFresh (front : List Char) : Bool :=
  front.isEmpty || front.getLast? == some '/'

theorem isFresh_append_singleton (front : List Char) (c : Char) :
    isFresh (front ++ [c]) = (c == '/') := by
  simp [isFresh]

theorem behind?_eq_some_drop {rest : List Char} :
    behind? marker path = some rest ↔
      (marker <+: path ∧ isNameEnd (path.drop marker.length) = true) ∧ rest = path.drop marker.length := by
  unfold behind?
  rw [Option.filter_eq_some_iff, dropStartChars?_eq_some_iff]
  constructor
  · rintro ⟨rfl, hend⟩
    rw [List.drop_left]
    exact ⟨⟨List.prefix_append _ _, hend⟩, rfl⟩
  · rintro ⟨⟨⟨behind, rfl⟩, hend⟩, rfl⟩
    rw [List.drop_left] at hend ⊢
    exact ⟨rfl, hend⟩

/-- Where a marker stands behind a part of a path. -/
theorem markerAt_length_iff {front : List Char} :
    MarkerAt marker (front ++ path) front.length ↔
      isFresh front = true ∧ marker <+: path ∧ isNameEnd (path.drop marker.length) = true := by
  have hstart : (front.length == 0 || (front ++ path)[front.length - 1]? == some '/') =
      isFresh front := by
    rcases List.eq_nil_or_concat front with rfl | ⟨before, c, rfl⟩
    · rfl
    · simp [isFresh]
  rw [markerAt_iff, isWhole, hstart, List.drop_left, Bool.and_eq_true, ← List.drop_drop, List.drop_left]
  exact and_left_comm

theorem lastBehind?_cons (c : Char) (front rest : List Char) :
    lastBehind? marker (isFresh front) (c :: rest) =
      (lastBehind? marker (isFresh (front ++ [c])) rest).or
        (if isFresh front then behind? marker (c :: rest) else none) := by
  rw [lastBehind?, isFresh_append_singleton]

/-- If nothing follows a marker in the rest of a path, it does not stand there. -/
theorem not_markerAt_of_lastBehind? (hm : marker ≠ []) : ∀ {rest front : List Char},
    lastBehind? marker (isFresh front) rest = none →
      ∀ k, front.length ≤ k → ¬ MarkerAt marker (front ++ rest) k
  | [], front, _, k, hk, hmarker => by
    have hle := hmarker.le_length hm
    have hpos := List.length_pos_iff.2 hm
    rw [List.append_nil] at hle
    omega
  | c :: rest, front, h, k, hk, hmarker => by
    rw [lastBehind?_cons, Option.or_eq_none_iff] at h
    obtain ⟨hlater, hhere⟩ := h
    rcases Nat.eq_or_lt_of_le hk with rfl | hlt
    · obtain ⟨hstart, hbehind⟩ := markerAt_length_iff.1 hmarker
      rw [if_pos hstart, behind?_eq_some_drop.2 ⟨hbehind, rfl⟩] at hhere
      cases hhere
    · refine not_markerAt_of_lastBehind? hm hlater k (by simpa using Nat.succ_le_of_lt hlt) ?_
      rwa [List.append_assoc]

/-- What follows a marker in the rest of a path follows the last index where it stands. -/
theorem exists_markerAt_of_lastBehind? (hm : marker ≠ []) : ∀ {rest front behind : List Char},
    lastBehind? marker (isFresh front) rest = some behind →
      ∃ i, MarkerAt marker (front ++ rest) i ∧ (∀ k, MarkerAt marker (front ++ rest) k → k ≤ i) ∧
        behind = (front ++ rest).drop (i + marker.length)
  | [], front, behind, h => by
    rw [lastBehind?] at h
    split at h
    · exact absurd (List.prefix_nil.1 (behind?_eq_some_drop.1 h).1.1) hm
    · cases h
  | c :: rest, front, behind, h => by
    rw [lastBehind?_cons, Option.or_eq_some_iff] at h
    rcases h with hlater | ⟨hlater, hhere⟩
    · obtain ⟨i, hi⟩ := exists_markerAt_of_lastBehind? hm hlater
      rw [List.append_assoc] at hi
      exact ⟨i, hi⟩
    · split at hhere
      · rename_i hstart
        obtain ⟨hbehind, rfl⟩ := behind?_eq_some_drop.1 hhere
        refine ⟨front.length, markerAt_length_iff.2 ⟨hstart, hbehind⟩, fun k hk => ?_, ?_⟩
        · -- Behind this place the marker does not stand.
          refine Nat.le_of_not_lt fun hlt => ?_
          refine not_markerAt_of_lastBehind? hm hlater k (by simpa using Nat.succ_le_of_lt hlt) ?_
          rwa [List.append_assoc]
        · rw [← List.drop_drop, List.drop_left]
      · cases hhere

/-- **What follows the routes root is what follows the index that the search finds.** -/
theorem belowRoot?_eq_searchBack (hm : marker ≠ []) :
    belowRoot? marker path =
      (searchBack marker path path.length).map fun i => path.drop (i + marker.length) := by
  have hbelow : belowRoot? marker path = lastBehind? marker (isFresh []) path := by
    unfold belowRoot?
    rw [if_neg (by simpa using hm)]
    rfl
  rw [hbelow]
  cases h : lastBehind? marker (isFresh []) path with
  | none =>
    have hsearch : searchBack marker path path.length = none :=
      (searchBack_eq_none_iff hm).2 fun k => not_markerAt_of_lastBehind? hm h k (Nat.zero_le k)
    rw [hsearch]
    rfl
  | some behind =>
    obtain ⟨i, hi, hmax, rfl⟩ := exists_markerAt_of_lastBehind? hm h
    have hsearch : searchBack marker path path.length = some i := (searchBack_eq_some_iff hm).2 ⟨hi, hmax⟩
    rw [hsearch]
    rfl

end

end RouteAtlas.Location
