import Mathlib.Data.List.Forall2
import Mathlib.Data.List.Nodup
import Mathlib.Data.List.Perm.Basic
import Mathlib.Tactic.Tauto
import SimMetadata.Bundle
import SimMetadata.Proofs.Except
import SimMetadata.Proofs.Path

/-!
# What is to be stored

Files are selected by path, and stored under names. Paths are the same if their components are, and
names if their texts are. So two sources may not be compiled to one path, however it is written; a
path that is selected twice is stored once.

The files to be stored are kept in the order of their names, without repetition. Such a list is
determined by what is in it. So it does not matter in which order files are selected or sources are
listed.

## Main definitions

* `Bundle.Produces`: a source is compiled to a path.
* `Bundle.PathsDiffer`: no two sources are compiled to one path.
* `Bundle.Selection`: every file that a selected path stands for, in order.

## Main results

* `Bundle.Sorted.ext`: files in order are determined by which they are.
* `Bundle.firstCollision?_eq_none_iff`: when no two sources are compiled to one path.
* `Bundle.selection?_eq_ok_iff`: what is to be stored.
-/

namespace SimMetadata

/-! ### The order of the files -/

attribute [ext] Selected Archive

namespace Selected

variable {s t u : Selected}

/-- Files by the components of their paths. -/
def comparePaths (s t : Selected) : Ordering :=
  Path.compareComponents s.path.components t.path.components

instance : Std.TransCmp comparePaths where
  eq_swap := by
    intro s t
    rw [comparePaths, comparePaths]
    exact Std.OrientedCmp.eq_swap
  isLE_trans := by
    intro s t u hst htu
    rw [comparePaths] at hst htu ⊢
    exact Std.TransCmp.isLE_trans hst htu

theorem compare_eq : Selected.compare = compareLex (compareOn arcname) comparePaths := rfl

instance : Std.TransCmp Selected.compare := by
  rw [compare_eq]
  infer_instance

/-- Two files are the same in this order if they have one name and their paths denote alike. -/
theorem compare_eq_eq_iff :
    s.compare t = .eq ↔ s.arcname = t.arcname ∧ s.path.denotesSame t.path = true := by
  rw [compare_eq, compareLex, Ordering.then_eq_eq, compareOn, comparePaths,
    Std.LawfulEqCmp.compare_eq_iff_eq, Std.LawfulEqCmp.compare_eq_iff_eq, Path.denotesSame,
    decide_eq_true_iff]

/-- A file that comes before another one has a smaller name or the same. -/
theorem arcname_lt_of_compare (h : s.compare t = .lt) (hne : s.arcname ≠ t.arcname) :
    s.arcname < t.arcname := by
  rw [compare_eq, compareLex, Ordering.then_eq_lt] at h
  rcases h with h | ⟨h, -⟩
  · exact compareOfLessAndEq_eq_lt.mp h
  · rw [compareOn, Std.LawfulEqCmp.compare_eq_iff_eq] at h
    exact absurd h hne

end Selected

namespace Bundle

variable {s t : Selected} {l : List Selected}

/-- Files in their order and without repetition. -/
def Sorted (l : List Selected) : Prop := l.Pairwise fun s t => s.compare t = .lt

theorem mem_of_mem_insertSelected (h : t ∈ insertSelected s l) : t = s ∨ t ∈ l := by
  induction l with
  | nil => exact .inl (List.mem_singleton.mp h)
  | cons a rest ih =>
    rw [insertSelected] at h
    split at h
    · exact List.mem_cons.mp h
    · exact .inr h
    · rcases List.mem_cons.mp h with rfl | h
      · exact .inr List.mem_cons_self
      · exact (ih h).imp_right (List.mem_cons_of_mem _)

theorem Sorted.insertSelected (h : Sorted l) (s : Selected) : Sorted (insertSelected s l) := by
  induction l with
  | nil => exact List.pairwise_singleton _ _
  | cons a rest ih =>
    obtain ⟨ha, hrest⟩ := List.pairwise_cons.mp h
    rw [Bundle.insertSelected]
    split
    · next hlt =>
      refine List.pairwise_cons.mpr ⟨fun t ht => ?_, h⟩
      rcases List.mem_cons.mp ht with rfl | ht
      · exact hlt
      · exact Std.TransCmp.lt_trans hlt (ha t ht)
    · exact h
    · next hgt =>
      refine List.pairwise_cons.mpr ⟨fun t ht => ?_, ih hrest⟩
      rcases mem_of_mem_insertSelected ht with rfl | ht
      · exact Std.OrientedCmp.gt_iff_lt.mp hgt
      · exact ha t ht

/-- A file is inserted unless it is there already. If files of one name whose paths denote alike are
the same, insertion adds the file and nothing else. -/
theorem mem_insertSelected_iff (h : ∀ t ∈ l, s.compare t = .eq → s = t) :
    t ∈ insertSelected s l ↔ t = s ∨ t ∈ l := by
  refine ⟨mem_of_mem_insertSelected, fun ht => ?_⟩
  induction l with
  | nil => exact List.mem_singleton.mpr (ht.resolve_right List.not_mem_nil)
  | cons a rest ih =>
    rw [insertSelected]
    split
    · exact List.mem_cons.mpr ht
    · next heq =>
      rcases ht with rfl | ht
      · exact h a List.mem_cons_self heq ▸ List.mem_cons_self
      · exact ht
    · have ih := ih fun t ht => h t (List.mem_cons_of_mem _ ht)
      rcases ht with rfl | ht
      · exact List.mem_cons_of_mem _ (ih (.inl rfl))
      · rcases List.mem_cons.mp ht with rfl | ht
        · exact List.mem_cons_self
        · exact List.mem_cons_of_mem _ (ih (.inr ht))

theorem ne_of_compare (h : s.compare t = .lt) : s ≠ t := by
  rintro rfl
  have hself : s.compare s = .eq := Std.ReflCmp.compare_self
  cases h.symm.trans hself

theorem Sorted.nodup (h : Sorted l) : l.Nodup := h.imp ne_of_compare

/-- Files in their order are determined by which they are. -/
theorem Sorted.ext {l' : List Selected} (h : Sorted l) (h' : Sorted l')
    (hmem : ∀ s, s ∈ l ↔ s ∈ l') : l = l' := by
  have hperm : l.Perm l' := (List.perm_ext_iff_of_nodup h.nodup h'.nodup).mpr hmem
  refine hperm.eq_of_pairwise (fun s t _ _ hst hts => ?_) h h'
  exact absurd rfl (ne_of_compare (Std.TransCmp.lt_trans hst hts))

/-! ### Sources and paths -/

variable {d : Disk} {selected selected' : List Path} {sources sources' : List ScriptSource}
  {files : List Selected} {p q : Path} {src other : ScriptSource}

/-- A source is compiled to a path, however that is written. -/
def Produces (src : ScriptSource) (p : Path) : Prop := src.compiled.components = p.components

/-- No two sources are compiled to one path. -/
def PathsDiffer (sources : List ScriptSource) : Prop :=
  (sources.map fun s => s.compiled.components).Nodup

theorem PathsDiffer.perm (h : PathsDiffer sources) (hperm : sources'.Perm sources) :
    PathsDiffer sources' :=
  (hperm.map _).nodup_iff.mpr h

/-- If no two sources are compiled to one path, a path has one source. -/
theorem PathsDiffer.unique (h : PathsDiffer sources) (hs : src ∈ sources) (ho : other ∈ sources)
    (heq : src.compiled.components = other.compiled.components) : src = other :=
  List.inj_on_of_nodup_map h hs ho heq

theorem firstCollision?_eq_none_iff {earlier : List ScriptSource} :
    firstCollision? earlier sources = none ↔ PathsDiffer sources
      ∧ ∀ s ∈ sources, ∀ t ∈ earlier, t.compiled.components ≠ s.compiled.components := by
  induction sources generalizing earlier with
  | nil => simp [firstCollision?, PathsDiffer]
  | cons s rest ih =>
    rw [firstCollision?]
    by_cases hany : earlier.any (·.compiled.denotesSame s.compiled) = true
    · obtain ⟨t, ht, hsame⟩ := List.any_eq_true.mp hany
      rw [if_pos hany]
      constructor
      · intro h
        cases h
      · rintro ⟨-, h⟩
        exact absurd (of_decide_eq_true hsame) (h s List.mem_cons_self t ht)
    · have hearlier : ∀ t ∈ earlier, t.compiled.components ≠ s.compiled.components := by
        intro t ht hsame
        exact hany (List.any_eq_true.mpr ⟨t, ht, decide_eq_true hsame⟩)
      rw [if_neg hany, ih, PathsDiffer, PathsDiffer, List.map_cons, List.nodup_cons, List.mem_map]
      simp only [List.forall_mem_cons]
      constructor
      · rintro ⟨hrest, hmore⟩
        refine ⟨⟨?_, hrest⟩, hearlier, fun t ht => (hmore t ht).2⟩
        rintro ⟨t, ht, hsame⟩
        exact (hmore t ht).1 hsame.symm
      · rintro ⟨⟨hs, hrest⟩, -, hmore⟩
        exact ⟨hrest, fun t ht => ⟨fun hsame => hs ⟨t, ht, hsame.symm⟩, hmore t ht⟩⟩

/-- The collision that is found is the first one: there is none among the sources before it. -/
theorem firstCollision?_eq_some {earlier : List ScriptSource}
    (h : firstCollision? earlier sources = some src) :
    ∃ before after, sources = before ++ src :: after ∧ firstCollision? earlier before = none
      ∧ ∃ t ∈ earlier ++ before, t.compiled.components = src.compiled.components := by
  induction sources generalizing earlier with
  | nil => cases h
  | cons s rest ih =>
    rw [firstCollision?] at h
    by_cases hany : earlier.any (·.compiled.denotesSame s.compiled) = true
    · rw [if_pos hany] at h
      cases h
      obtain ⟨t, ht, hsame⟩ := List.any_eq_true.mp hany
      exact ⟨[], rest, rfl, rfl, t, by simpa using ht, of_decide_eq_true hsame⟩
    · rw [if_neg hany] at h
      obtain ⟨before, after, rfl, hnone, t, ht, hsame⟩ := ih h
      refine ⟨s :: before, after, rfl, ?_, t, by simpa [or_left_comm] using ht, hsame⟩
      rw [firstCollision?, if_neg hany]
      exact hnone

theorem producer?_eq_none_iff : producer? sources p = none ↔ ∀ s ∈ sources, ¬ Produces s p := by
  simp [producer?, Path.denotesSame, Produces]

theorem produces_of_producer? (h : producer? sources p = some src) :
    src ∈ sources ∧ Produces src p := by
  have hsame := List.find?_some h
  rw [Path.denotesSame, decide_eq_true_iff] at hsame
  exact ⟨List.mem_of_find?_eq_some h, hsame⟩

/-! ### What is to be stored -/

/-- A file is what a selected path stands for. -/
def StandsFor (sources : List ScriptSource) (p : Path) (f : Selected) : Prop :=
  f.path = p ∧ ∃ s ∈ sources, Produces s p ∧ f.arcname = s.arcname

theorem selectedFiles?_eq_ok_iff (h : PathsDiffer sources) :
    selectedFiles? sources selected = .ok files ↔
      List.Forall₂ (StandsFor sources) selected files := by
  induction selected generalizing files with
  | nil =>
    rw [selectedFiles?, List.forall₂_nil_left_iff]
    constructor
    · intro hfiles
      cases hfiles
      rfl
    · rintro rfl
      rfl
  | cons p rest ih =>
    rw [selectedFiles?]
    cases hproducer : producer? sources p with
    | none =>
      constructor
      · intro hfiles
        cases hfiles
      · intro hfiles
        obtain ⟨f, fs, ⟨-, s, hs, hproduces, -⟩, -, rfl⟩ := List.forall₂_cons_left_iff.mp hfiles
        exact absurd hproduces (producer?_eq_none_iff.mp hproducer s hs)
    | some s =>
      obtain ⟨hs, hproduces⟩ := produces_of_producer? hproducer
      rw [List.forall₂_cons_left_iff]
      constructor
      · intro hfiles
        obtain ⟨fs, hfs, hfiles⟩ := except_bind_eq_ok_iff.mp hfiles
        cases hfiles
        exact ⟨_, fs, ⟨rfl, s, hs, hproduces, rfl⟩, ih.mp hfs, rfl⟩
      · rintro ⟨⟨arcname, path⟩, fs, ⟨rfl, s', hs', hproduces', rfl⟩, hfs, rfl⟩
        have hsame : s' = s := h.unique hs' hs (hproduces'.trans hproduces.symm)
        subst hsame
        exact except_bind_eq_ok_iff.mpr ⟨fs, ih.mpr hfs, rfl⟩

/-- The first path that no source is compiled to is reported. -/
theorem selectedFiles?_unknown {before after : List Path}
    (hknown : ∀ q ∈ before, ∃ s ∈ sources, Produces s q) (hp : ∀ s ∈ sources, ¬ Produces s p) :
    selectedFiles? sources (before ++ p :: after) = .error (.unknownCompiled p) := by
  induction before with
  | nil => rw [List.nil_append, selectedFiles?, producer?_eq_none_iff.mpr hp]
  | cons q before ih =>
    have hrest := ih fun q' hq' => hknown q' (List.mem_cons_of_mem _ hq')
    rw [List.cons_append, selectedFiles?]
    cases hproducer : producer? sources q with
    | none =>
      obtain ⟨s, hs, hproduces⟩ := hknown q List.mem_cons_self
      exact absurd hproduces (producer?_eq_none_iff.mp hproducer s hs)
    | some s => exact except_bind_eq_error_iff.mpr (.inl hrest)

/-- Only a path that no source is compiled to is refused. -/
theorem selectedFiles?_error {failure : Failure}
    (h : selectedFiles? sources selected = .error failure) :
    ∃ p ∈ selected, (∀ s ∈ sources, ¬ Produces s p) ∧ failure = .unknownCompiled p := by
  induction selected with
  | nil => cases h
  | cons p ps ih =>
    rw [selectedFiles?] at h
    split at h
    · next hproducer =>
      cases h
      exact ⟨p, List.mem_cons_self, producer?_eq_none_iff.mp hproducer, rfl⟩
    · rcases except_bind_eq_error_iff.mp h with h | ⟨files, -, h⟩
      · obtain ⟨q, hq, hknown⟩ := ih h
        exact ⟨q, List.mem_cons_of_mem _ hq, hknown⟩
      · cases h

theorem foldl_insertSelected {done : List Selected}
    (halike : ∀ s ∈ done ++ files, ∀ t ∈ done ++ files, s.compare t = .eq → s = t)
    (hdone : Sorted done) :
    Sorted (files.foldl (fun all s => insertSelected s all) done)
      ∧ ∀ f, f ∈ files.foldl (fun all s => insertSelected s all) done ↔ f ∈ done ∨ f ∈ files := by
  induction files generalizing done with
  | nil => exact ⟨hdone, fun f => by simp⟩
  | cons s rest ih =>
    have hmem : ∀ f, f ∈ insertSelected s done ↔ f = s ∨ f ∈ done := fun f =>
      mem_insertSelected_iff fun t ht => halike s (by simp) t (by simp [ht])
    have hsame : ∀ f, f ∈ insertSelected s done ++ rest ↔ f ∈ done ++ s :: rest := by
      intro f
      simp only [List.mem_append, hmem, List.mem_cons]
      tauto
    obtain ⟨hsorted, hfold⟩ := ih (fun f hf g hg =>
      halike f ((hsame f).mp hf) g ((hsame g).mp hg)) (hdone.insertSelected s)
    refine ⟨hsorted, fun f => ?_⟩
    rw [List.foldl_cons, hfold, hmem, List.mem_cons]
    tauto

/-- What is to be stored: every file that a selected path stands for, in order. -/
structure Selection (selected : List Path) (sources : List ScriptSource) (files : List Selected) :
    Prop where
  sorted : Sorted files
  mem_iff : ∀ f, f ∈ files ↔ ∃ p ∈ selected, StandsFor sources p f

/-- A selected path stands for one file. -/
theorem StandsFor.unique (h : PathsDiffer sources) {f g : Selected} (hf : StandsFor sources p f)
    (hg : StandsFor sources p g) : f = g := by
  obtain ⟨arcname, path⟩ := f
  obtain ⟨arcname', path'⟩ := g
  obtain ⟨rfl, s, hs, hproduces, rfl⟩ := hf
  obtain ⟨rfl, t, ht, hproduces', rfl⟩ := hg
  rw [h.unique hs ht (hproduces.trans hproduces'.symm)]

/-- Paths that denote alike are the same text. -/
def WrittenAlike (selected : List Path) : Prop :=
  ∀ p ∈ selected, ∀ q ∈ selected, p.components = q.components → p = q

/-- Whatever order the selected files come in, they are put into the one that is described. -/
theorem selection_of_forall₂ (halike : WrittenAlike selected) (hdiffer : PathsDiffer sources)
    (h : List.Forall₂ (StandsFor sources) selected files) :
    Selection selected sources (files.foldl (fun all s => insertSelected s all) []) := by
  have hmem : ∀ f, f ∈ files ↔ ∃ p ∈ selected, StandsFor sources p f := by
    intro f
    constructor
    · intro hf
      exact exists_of_forall₂ h.flip hf
    · rintro ⟨p, hp, hstands⟩
      obtain ⟨g, hg, hstands'⟩ := exists_of_forall₂ h hp
      exact hstands.unique hdiffer hstands' ▸ hg
  have hsame : ∀ f ∈ files, ∀ g ∈ files, f.compare g = .eq → f = g := by
    intro f hf g hg heq
    obtain ⟨harcname, hpath⟩ := Selected.compare_eq_eq_iff.mp heq
    obtain ⟨p, hp, rfl, -⟩ := (hmem f).mp hf
    obtain ⟨q, hq, rfl, -⟩ := (hmem g).mp hg
    exact Selected.ext harcname (halike _ hp _ hq (of_decide_eq_true hpath))
  have hempty : Sorted [] := .nil
  obtain ⟨hsorted, hfold⟩ := foldl_insertSelected hsame hempty
  exact ⟨hsorted, fun f => by rw [hfold, ← hmem]; simp⟩

theorem exists_standsFor (hknown : ∀ p ∈ selected, ∃ s ∈ sources, Produces s p) :
    ∃ files, List.Forall₂ (StandsFor sources) selected files := by
  apply exists_forall₂
  intro p hp
  obtain ⟨s, hs, hproduces⟩ := hknown p hp
  exact ⟨⟨s.arcname, p⟩, rfl, s, hs, hproduces, rfl⟩

/-- **What is to be stored.** -/
theorem selection?_eq_ok_iff (halike : WrittenAlike selected) :
    selection? selected sources = .ok files ↔ PathsDiffer sources
      ∧ (∀ p ∈ selected, ∃ s ∈ sources, Produces s p) ∧ Selection selected sources files := by
  rw [selection?]
  cases hcollision : firstCollision? [] sources with
  | some s =>
    have hnot : ¬ PathsDiffer sources := fun hdiffer => by
      rw [firstCollision?_eq_none_iff.mpr ⟨hdiffer, by simp⟩] at hcollision
      cases hcollision
    constructor
    · intro h
      cases h
    · rintro ⟨hdiffer, -⟩
      exact absurd hdiffer hnot
  | none =>
    have hdiffer : PathsDiffer sources := (firstCollision?_eq_none_iff.mp hcollision).1
    constructor
    · intro h
      obtain ⟨found, hfound, h⟩ := except_bind_eq_ok_iff.mp h
      cases h
      have hfound := (selectedFiles?_eq_ok_iff hdiffer).mp hfound
      refine ⟨hdiffer, fun p hp => ?_, selection_of_forall₂ halike hdiffer hfound⟩
      obtain ⟨f, -, -, s, hs, hproduces, -⟩ := exists_of_forall₂ hfound hp
      exact ⟨s, hs, hproduces⟩
    · rintro ⟨-, hknown, hfiles⟩
      obtain ⟨found, hfound⟩ := exists_standsFor hknown
      have hselection := selection_of_forall₂ halike hdiffer hfound
      have hsame : found.foldl (fun all s => insertSelected s all) [] = files := by
        refine hselection.sorted.ext hfiles.sorted fun f => ?_
        rw [hselection.mem_iff, hfiles.mem_iff]
      exact except_bind_eq_ok_iff.mpr
        ⟨found, (selectedFiles?_eq_ok_iff hdiffer).mpr hfound, congrArg _ hsame⟩

end Bundle

end SimMetadata
