import SimMetadata.Proofs.Path.Plain

/-!
# Components of a joined path

A path that is seen from a directory has the components of the directory in front of its own, if it
is plain. It does not matter how the directory is written: it may be empty, absolute, or end in a
slash or a dot.

## Main results

* `Path.components_join`: the components of a plain path seen from a directory.
* `Path.not_mem_of_extension?`: an extension has no slash.
-/

namespace SimMetadata.Path

variable {p q : Path} {cs s : List Char} {segs : List (List Char)}

/-! ### Components -/

/-- The components of a path with these segments, where `absolute` tells whether it is absolute. -/
def componentsOf (absolute : Bool) : List (List Char) → List Component
  | [] => []
  | first :: rest =>
    (if absolute then [.root]
      else if first = ['.'] then [.here]
      else (component? first).toList) ++ rest.filterMap component?

theorem components_eq_componentsOf (p : Path) :
    p.components = componentsOf p.isAbsolute (segments p.text.toList) := by
  rw [components]
  cases segments p.text.toList <;> rfl

theorem componentsOf_append (absolute : Bool) (hsegs : segs ≠ []) (more : List (List Char)) :
    componentsOf absolute (segs ++ more)
      = componentsOf absolute segs ++ more.filterMap component? := by
  cases segs with
  | nil => exact absurd rfl hsegs
  | cons first rest =>
    rw [List.cons_append, componentsOf, componentsOf, List.filterMap_append, List.append_assoc]

theorem IsPlain.filterMap_segments (h : p.IsPlain) :
    (segments p.text.toList).filterMap component? = p.components := by
  rw [h.components_eq]
  exact List.filterMap_eq_map_iff_forall_eq_some.mpr h

/-- **A plain path seen from a directory** has its components behind those of the directory. -/
theorem components_join (p : Path) (hq : q.IsPlain) :
    (p.join q).components = p.components ++ q.components := by
  rw [← hq.filterMap_segments, join, if_neg (by simp [hq.isAbsolute_eq_false])]
  by_cases hempty : p.text = ""
  · have hp : p = ⟨""⟩ := congrArg Path.mk hempty
    rw [if_pos (.inl hempty), hp, components_empty, String.empty_append, List.nil_append,
      hq.filterMap_segments]
  have hne : p.text.toList ≠ [] := fun h => hempty (String.toList_eq_nil_iff.mp h)
  obtain ⟨c, rest, hp⟩ := List.exists_cons_of_ne_nil hne
  by_cases hslash : p.text.toList.getLast? = some '/'
  · -- The slash at the end of the directory is the one between the two.
    obtain ⟨dir, hdir⟩ := List.getLast?_eq_some_iff.mp hslash
    have htext : (p.text ++ q.text).toList = dir ++ '/' :: q.text.toList := by
      rw [String.toList_append, hdir, List.append_assoc, List.singleton_append]
    have habsolute : (⟨p.text ++ q.text⟩ : Path).isAbsolute = p.isAbsolute := by
      rw [isAbsolute, isAbsolute, String.toList_append, hp, List.cons_append, List.head?_cons,
        List.head?_cons]
    rw [if_pos (.inr hslash), components_eq_componentsOf, components_eq_componentsOf, habsolute,
      htext, hdir, segments_append_slash, segments_append_slash,
      componentsOf_append _ (segments_ne_nil dir), componentsOf_append _ (segments_ne_nil dir)]
    simp [segments, component?]
  · have htext : (p.text ++ "/" ++ q.text).toList = p.text.toList ++ '/' :: q.text.toList := by
      simp
    have habsolute : (⟨p.text ++ "/" ++ q.text⟩ : Path).isAbsolute = p.isAbsolute := by
      rw [isAbsolute, isAbsolute, htext, hp, List.cons_append, List.head?_cons, List.head?_cons]
    rw [if_neg (not_or.mpr ⟨hempty, hslash⟩), components_eq_componentsOf,
      components_eq_componentsOf, habsolute, htext, segments_append_slash,
      componentsOf_append _ (segments_ne_nil _)]

/-! ### Extensions -/

theorem not_mem_of_mem_splitOn {sep : Char} (h : s ∈ cs.splitOn sep) : sep ∉ s := by
  induction cs generalizing s with
  | nil =>
    cases List.mem_singleton.mp h
    exact List.not_mem_nil
  | cons c cs ih =>
    obtain ⟨first, others, hs⟩ := List.exists_cons_of_ne_nil (List.splitOn_ne_nil sep cs)
    rw [List.splitOn_cons_eq_if_modifyHead] at h
    rw [hs] at h ih
    split at h
    · rcases List.mem_cons.mp h with rfl | h
      · exact List.not_mem_nil
      · exact ih h
    · next hc =>
      rw [List.modifyHead_cons] at h
      rcases List.mem_cons.mp h with rfl | h
      · have hne : sep ≠ c := fun h => hc (beq_iff_eq.mpr h.symm)
        exact List.not_mem_cons_of_ne_of_not_mem hne (ih List.mem_cons_self)
      · exact ih (List.mem_cons_of_mem _ h)

/-- A segment that leaves a name is this name. -/
theorem toList_of_component? {n : String} (h : component? s = some (.name n)) : n.toList = s := by
  rw [component?] at h
  split at h
  · cases h
  · split at h
    · cases h
    · cases h
      exact String.toList_ofList

theorem mem_segments_of_name_mem {n : String} (h : .name n ∈ p.components) :
    n.toList ∈ segments p.text.toList := by
  rw [components_eq_componentsOf] at h
  cases hs : segments p.text.toList with
  | nil => exact absurd hs (segments_ne_nil _)
  | cons first rest =>
    rw [hs, componentsOf, List.mem_append] at h
    rcases h with h | h
    · split at h
      · cases List.mem_singleton.mp h
      · split at h
        · cases List.mem_singleton.mp h
        · rw [toList_of_component? (Option.mem_toList.mp h)]
          exact List.mem_cons_self
    · obtain ⟨s, hmem, hs⟩ := List.mem_filterMap.mp h
      rw [toList_of_component? hs]
      exact List.mem_cons_of_mem _ hmem

theorem not_mem_of_fileName? {n : String} (h : p.fileName? = some n) : '/' ∉ n.toList := by
  obtain ⟨component, hlast, hname⟩ := Option.bind_eq_some_iff.mp h
  cases component with
  | name m =>
    cases hname
    have hmem := mem_segments_of_name_mem (List.mem_of_getLast? hlast)
    rw [segments_eq_splitOn] at hmem
    exact not_mem_of_mem_splitOn hmem
  | root => cases hname
  | here => cases hname
  | up => cases hname

/-- **An extension has no slash**, because it is a part of a file name. -/
theorem not_mem_of_extension? {extension : String} (h : p.extension? = some extension) :
    '/' ∉ extension.toList := by
  obtain ⟨n, hn, h⟩ := Option.bind_eq_some_iff.mp h
  dsimp only at h
  split at h
  · cases h
  · cases h
  · cases h
    intro hmem
    rw [String.toList_ofList, List.mem_reverse] at hmem
    exact not_mem_of_fileName? hn (List.mem_reverse.mp (List.takeWhile_subset _ hmem))

end SimMetadata.Path
