/-
  RouteAtlas: paths and their texts.

  * `IsPart` says of a name that it can stand between slashes; the names of a path that was read do
    (`isPart_of_mem_ofText`);
  * `splitOn_placeText`: cutting the text of a place gives its names, and `ofText_placeText`: the text
    leads to the place;
  * `endsWith_text`: what ends the last name of a path ends its text.
-/
import RouteAtlas.FileTree.Basic
import RouteAtlas.Proofs.Text.Cut

namespace RouteAtlas

open RouteAtlas.Text

/-- A name that can stand between the slashes of a path. -/
structure IsPart (name : String) : Prop where
  ne_empty : name ≠ ""
  ne_point : name ≠ "."
  no_slash : '/' ∉ name.toList

instance (name : String) : Decidable (IsPart name) :=
  decidable_of_iff (name ≠ "" ∧ name ≠ "." ∧ '/' ∉ name.toList)
    ⟨fun ⟨hempty, hpoint, hslash⟩ => ⟨hempty, hpoint, hslash⟩,
      fun h => ⟨h.ne_empty, h.ne_point, h.no_slash⟩⟩

namespace FilePath

@[simp] theorem parent_child (p : FilePath) (name : String) : (p.child name).parent = p := by
  simp [child, parent]

@[simp] theorem name_child (p : FilePath) (name : String) : (p.child name).name = name := by
  simp [child, FilePath.name]

/-- The names of a path that was read can stand between slashes. -/
theorem isPart_of_mem_ofText {s name : String} (h : name ∈ (ofText s).names) : IsPart name := by
  obtain ⟨hmem, hname⟩ := List.mem_filter.1 h
  have hparts : name ≠ "" ∧ name ≠ "." := by simpa [isName] using hname
  exact ⟨hparts.1, hparts.2, not_mem_of_mem_splitOn hmem⟩

/-- The text of a place is cut into the names of the place, behind an empty part. -/
theorem splitOn_placeText {place : Place} (hne : place ≠ []) (h : ∀ name ∈ place, '/' ∉ name.toList) :
    splitOn '/' place.text = "" :: place := by
  obtain ⟨name, rest, rfl⟩ := List.exists_cons_of_ne_nil hne
  have hslash : "/" ++ joinWith "/" (name :: rest) =
      joinWith (.singleton '/') ("" :: name :: rest) := by
    apply String.toList_inj.1
    simp [joinWith, joinChars]
  unfold Place.text
  rw [hslash, splitOn_joinWith (List.cons_ne_nil _ _)]
  exact List.forall_mem_cons.2 ⟨by simp, h⟩

/-- The text of a place leads to the place. -/
theorem ofText_placeText {place : Place} (h : ∀ name ∈ place, IsPart name) :
    ofText place.text = ⟨"/", place⟩ := by
  cases place with
  | nil => rfl
  | cons name rest =>
    have hcut := splitOn_placeText (List.cons_ne_nil name rest) fun p hp => (h p hp).no_slash
    have hroot : rootOf (Place.text (name :: rest)).toList = "/" := by
      obtain ⟨c, cs, hc⟩ := List.exists_cons_of_ne_nil
        (mt String.toList_eq_nil_iff.1 (h name (List.mem_cons_self ..)).ne_empty)
      have hne : c ≠ '/' := fun he => (h name (List.mem_cons_self ..)).no_slash (by simp [hc, he])
      have htext : ∃ more, (Place.text (name :: rest)).toList = '/' :: c :: more := by
        cases rest <;> exact ⟨_, by simp [Place.text, joinWith, joinChars, hc]; rfl⟩
      obtain ⟨more, hm⟩ := htext
      rw [hm]
      unfold rootOf
      split
      · rename_i heq; exact absurd (List.cons.inj (List.cons.inj heq).2).1 hne
      · rename_i heq; exact absurd (List.cons.inj (List.cons.inj heq).2).1 hne
      · rfl
      · rename_i hnone; exact absurd rfl (hnone _)
    have hnames : (name :: rest).filter isName = name :: rest :=
      List.filter_eq_self.2 fun p hp => by simp [isName, (h p hp).ne_empty, (h p hp).ne_point]
    unfold ofText
    rw [hroot, hcut, List.filter_cons_of_neg (by simp [isName]), hnames]

/-- Different places have different texts. -/
theorem placeText_inj {p q : Place} (hp : ∀ name ∈ p, IsPart name) (hq : ∀ name ∈ q, IsPart name)
    (h : p.text = q.text) : p = q := by
  have := ofText_placeText hp
  rw [h, ofText_placeText hq] at this
  exact (congrArg FilePath.names this).symm

/-- What ends the last name of a path ends its text. -/
theorem endsWith_text {p : FilePath} {above : List String} {name stop : String}
    (hp : p.names = above ++ [name]) (h : endsWith stop name = true) (hname : name ≠ "") :
    endsWith stop p.text = true := by
  have hends : ∀ stop, endsWith stop name = true →
      endsWith stop (p.root ++ joinWith "/" p.names) = true := fun stop h => by
    rw [hp]
    exact endsWith_append (endsWith_joinWith h above) p.root
  have hne : (p.root ++ joinWith "/" p.names).isEmpty = false := by
    obtain ⟨front, hf⟩ := endsWith_iff.1 (hends name (endsWith_iff.2 ⟨"", by simp⟩))
    rw [hf]
    simp [hname]
  unfold text
  simp only [hne, Bool.false_eq_true, if_false]
  exact hends stop h

end FilePath

end RouteAtlas
