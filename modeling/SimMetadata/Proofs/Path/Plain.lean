import Mathlib.Data.List.Basic
import SimMetadata.Path

/-!
# Plain paths

A comparison by components leaves out repeated slashes, single dots and a slash at the end, so
different texts can denote alike. This does not happen to a path that is plain: between its slashes
there is nothing but names, which are its components.

## Main definitions

* `Path.IsLabel`: the texts that the names of generated files have.
* `Path.IsPlain`: what stands between the slashes is names.

## Main results

* `Path.IsPlain.eq_of_components_eq`: plain paths with the same components are equal.
* `Path.isPlain_of_isLabel`, `Path.isPlain_of_toList`: paths of labels are plain.
-/

namespace SimMetadata.Path

variable {p q : Path} {cs dir : List Char}

/-! ### Segments -/

/-- The segments are what splitting at every slash gives. -/
theorem segments_eq_splitOn (cs : List Char) : segments cs = cs.splitOn '/' := by
  induction cs with
  | nil => rfl
  | cons c cs ih =>
    rw [segments, List.splitOn_cons_eq_if_modifyHead, ih]
    cases hs : cs.splitOn '/' with
    | nil => exact absurd hs (List.splitOn_ne_nil _ _)
    | cons first others => simp

theorem segments_of_not_mem (h : '/' ∉ cs) : segments cs = [cs] := by
  rw [segments_eq_splitOn, List.splitOn_eq_singleton h]

/-- A slash separates, whatever stands before it. -/
theorem segments_append_slash (cs rest : List Char) :
    segments (cs ++ '/' :: rest) = segments cs ++ segments rest := by
  simp only [segments_eq_splitOn, List.splitOn_append_cons_self]

theorem segments_append (h : '/' ∉ dir) (rest : List Char) :
    segments (dir ++ '/' :: rest) = dir :: segments rest := by
  rw [segments_append_slash, segments_of_not_mem h, List.singleton_append]

/-- A text without a slash behind another goes to its last segment. -/
theorem segments_append_of_not_mem {tail : List Char} (h : '/' ∉ tail) (cs : List Char) :
    ∃ front last, segments cs = front ++ [last]
      ∧ segments (cs ++ tail) = front ++ [last ++ tail] := by
  induction cs with
  | nil => exact ⟨[], [], rfl, segments_of_not_mem h⟩
  | cons c cs ih =>
    obtain ⟨front, last, hcs, htail⟩ := ih
    rw [List.cons_append, segments, segments, hcs, htail]
    by_cases hc : c = '/'
    · rw [if_pos hc, if_pos hc]
      exact ⟨[] :: front, last, rfl, rfl⟩
    · rw [if_neg hc, if_neg hc]
      cases front with
      | nil => exact ⟨[], c :: last, rfl, rfl⟩
      | cons first others => exact ⟨(c :: first) :: others, last, rfl, rfl⟩

/-- A text without a slash that ends with another character than a dot. -/
def IsLabel (cs : List Char) : Prop :=
  '/' ∉ cs ∧ cs.getLast? ≠ none ∧ cs.getLast? ≠ some '.'

instance : Decidable (IsLabel cs) := inferInstanceAs (Decidable (_ ∧ _))

theorem IsLabel.append {stem ending : List Char} (hstem : '/' ∉ stem) (h : IsLabel ending) :
    IsLabel (stem ++ ending) := by
  obtain ⟨hslash, hends, hdot⟩ := h
  obtain ⟨c, hlast⟩ := Option.ne_none_iff_exists'.mp hends
  have hlast' : (stem ++ ending).getLast? = ending.getLast? := by
    rw [List.getLast?_append, hlast]
    rfl
  rw [IsLabel, hlast']
  exact ⟨by simp [hstem, hslash], hends, hdot⟩

theorem IsLabel.component?_eq (h : IsLabel cs) :
    component? cs = some (.name (String.ofList cs)) := by
  obtain ⟨-, hends, hdot⟩ := h
  have hdots : ∀ dots : List Char, dots.getLast? = some '.' → cs ≠ dots := by
    rintro dots hdots rfl
    exact hdot hdots
  have hnil : cs ≠ [] := by
    rintro rfl
    exact hends rfl
  rw [component?, if_neg (not_or.mpr ⟨hnil, hdots ['.'] rfl⟩), if_neg (hdots ['.', '.'] rfl)]

/-! ### Plain paths -/

/-- What stands between the slashes of the path is names. In particular no slash stands in front. -/
def IsPlain (p : Path) : Prop :=
  ∀ s ∈ segments p.text.toList, component? s = some (.name (String.ofList s))

instance : Decidable p.IsPlain := inferInstanceAs (Decidable (∀ _ ∈ _, _))

namespace IsPlain

theorem isAbsolute_eq_false (h : p.IsPlain) : p.isAbsolute = false := by
  rw [isAbsolute, decide_eq_false_iff_not]
  intro hslash
  obtain ⟨rest, hrest⟩ := List.head?_eq_some_iff.mp hslash
  have hempty : [] ∈ segments p.text.toList := by
    rw [hrest, segments, if_pos rfl]
    exact List.mem_cons_self
  cases h [] hempty

theorem components_eq (h : p.IsPlain) :
    p.components = (segments p.text.toList).map fun s => .name (String.ofList s) := by
  rw [components, h.isAbsolute_eq_false]
  rw [IsPlain] at h
  cases hs : segments p.text.toList with
  | nil => rfl
  | cons first rest =>
    rw [hs] at h
    obtain ⟨hfirst, hrest⟩ := List.forall_mem_cons.mp h
    have hhere : first ≠ ['.'] := by
      rintro rfl
      cases hfirst
    dsimp only
    rw [if_neg (by decide), if_neg hhere, hfirst,
      List.filterMap_eq_map_iff_forall_eq_some.mpr hrest]
    rfl

/-- **Plain paths with the same components are equal.** The components are the segments, and joining
these gives the text back. -/
theorem eq_of_components_eq (hp : p.IsPlain) (hq : q.IsPlain) (h : p.components = q.components) :
    p = q := by
  have hinj : Function.Injective fun s : List Char => Component.name (String.ofList s) :=
    fun s t hst => String.ofList_injective (Component.name.inj hst)
  rw [hp.components_eq, hq.components_eq] at h
  have hsegments : segments p.text.toList = segments q.text.toList :=
    List.map_injective_iff.mpr hinj h
  have htext : p.text.toList = q.text.toList := by
    rw [← joinSegments_segments p.text.toList, hsegments, joinSegments_segments]
  exact congrArg Path.mk (String.toList_injective htext)

end IsPlain

/-- A path is plain if labels stand between its slashes. -/
theorem isPlain_of_isLabel (h : ∀ s ∈ segments p.text.toList, IsLabel s) : p.IsPlain :=
  fun s hs => (h s hs).component?_eq

/-- A file in a directory has a plain path, if both names are labels. -/
theorem isPlain_of_toList (dir file : List Char) (h : p.text.toList = dir ++ '/' :: file)
    (hdir : IsLabel dir) (hfile : IsLabel file) : p.IsPlain := by
  refine isPlain_of_isLabel fun s hs => ?_
  rw [h, segments_append hdir.1, segments_of_not_mem hfile.1] at hs
  rcases List.mem_pair.mp hs with rfl | rfl
  · exact hdir
  · exact hfile

end SimMetadata.Path
