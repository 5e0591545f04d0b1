import SimMetadata.Proofs.Bundle.Selection

/-!
# What goes into the bundle

The files that are to be stored are read one after the other. They go into the archive if all of
them can be read and no two of them have one name. They come in the order of their names, and the
archive has its members in that order.

## Main definitions

* `Bundle.Storable`: what a selection has to satisfy.
* `Bundle.Stores`: what an archive holds.

## Main results

* `Bundle.addFiles?_eq_ok_iff`: when the files can be stored, and what the archive holds then.
* `Bundle.archive?_eq_ok_iff`: when there is an archive.
* `Bundle.membership_exact`: all of this together, with the failures.
-/

namespace SimMetadata

namespace Bundle

variable {d : Disk} {selected selected' : List Path} {sources sources' : List ScriptSource}
  {files : List Selected} {p : Path} {src : ScriptSource}

/-! ### Storing the files -/

/-- A member of an archive holds a file under its name. -/
def Holds (d : Disk) (f : Selected) (m : Member) : Prop :=
  m.name = f.arcname ∧ d.read f.path = .ok m.data

theorem map_name_of_holds {members : List Member} (h : List.Forall₂ (Holds d) files members) :
    members.map Member.name = files.map Selected.arcname := by
  induction h with
  | nil => rfl
  | cons hholds _ ih => rw [List.map_cons, List.map_cons, hholds.1, ih]

/-- Files are stored if they can be read and have names of their own. -/
theorem addFiles?_eq_ok_iff {a b : Archive} :
    addFiles? d a files = .ok b ↔ ∃ members, List.Forall₂ (Holds d) files members
      ∧ b.members = a.members ++ members ∧ (files.map Selected.arcname).Nodup
      ∧ ∀ f ∈ files, f.arcname ∉ a.members.map Member.name := by
  induction files generalizing a with
  | nil =>
    rw [addFiles?]
    constructor
    · intro h
      cases h
      exact ⟨[], .nil, (List.append_nil _).symm, List.nodup_nil, by simp⟩
    · rintro ⟨members, hmembers, hb, -⟩
      cases hmembers
      rw [List.append_nil] at hb
      exact congrArg _ (Archive.ext hb.symm)
  | cons f rest ih =>
    rw [addFiles?]
    cases hread : d.read f.path with
    | error fault =>
      constructor
      · intro h
        cases h
      · rintro ⟨members, hmembers, -⟩
        obtain ⟨m, members, hholds, -, rfl⟩ := List.forall₂_cons_left_iff.mp hmembers
        rw [hholds.2] at hread
        cases hread
    | ok data =>
      dsimp only
      rw [Archive.add?]
      by_cases htaken : f.arcname ∈ a.members.map Member.name
      · rw [if_pos htaken]
        constructor
        · intro h
          cases h
        · rintro ⟨-, -, -, -, hnew⟩
          exact absurd htaken (hnew f List.mem_cons_self)
      · rw [if_neg htaken, List.map_cons, List.nodup_cons]
        have htaken' : ∀ g : Selected,
            g.arcname ∉ (a.members ++ [(⟨f.arcname, data⟩ : Member)]).map Member.name ↔
              g.arcname ∉ a.members.map Member.name ∧ g.arcname ≠ f.arcname := by
          intro g
          simp
        refine ih.trans ⟨?_, ?_⟩
        · rintro ⟨members, hmembers, hb, hnodup, hnew⟩
          simp only [htaken'] at hnew
          refine ⟨⟨f.arcname, data⟩ :: members, .cons ⟨rfl, hread⟩ hmembers, by simpa using hb,
            ⟨?_, hnodup⟩, List.forall_mem_cons.mpr ⟨htaken, fun g hg => (hnew g hg).1⟩⟩
          intro hmem
          obtain ⟨g, hg, hname⟩ := List.mem_map.mp hmem
          exact (hnew g hg).2 hname
        · rintro ⟨members, hmembers, hb, ⟨hfirst, hnodup⟩, hnew⟩
          obtain ⟨m, others, hholds, hothers, rfl⟩ := List.forall₂_cons_left_iff.mp hmembers
          obtain ⟨name, bytes⟩ := m
          obtain ⟨rfl, hdata⟩ := hholds
          obtain rfl : data = bytes := Except.ok.inj (hread.symm.trans hdata)
          refine ⟨others, hothers, by simpa using hb, hnodup, fun g hg => ?_⟩
          rw [htaken']
          refine ⟨hnew g (List.mem_cons_of_mem _ hg), fun hname => hfirst ?_⟩
          exact List.mem_map.mpr ⟨g, hg, hname⟩

/-- Storing fails at a file that cannot be read, or because two members would have one name. -/
theorem addFiles?_error {a : Archive} {failure : Failure}
    (h : addFiles? d a files = .error failure) :
    (∃ f ∈ files, ∃ fault, d.read f.path = .error fault ∧ failure = .io f.path fault)
      ∨ failure = .archive ∧ ¬ (a.members.map Member.name ++ files.map Selected.arcname).Nodup := by
  induction files generalizing a with
  | nil => cases h
  | cons f rest ih =>
    rw [addFiles?] at h
    cases hread : d.read f.path with
    | error fault =>
      rw [hread] at h
      cases h
      exact .inl ⟨f, List.mem_cons_self, fault, hread, rfl⟩
    | ok data =>
      rw [hread] at h
      dsimp only at h
      rw [Archive.add?] at h
      by_cases htaken : f.arcname ∈ a.members.map Member.name
      · rw [if_pos htaken] at h
        cases h
        refine .inr ⟨rfl, fun hnodup => ?_⟩
        exact List.disjoint_of_nodup_append hnodup htaken List.mem_cons_self
      · rw [if_neg htaken] at h
        rcases ih h with ⟨g, hg, hfault⟩ | ⟨hfailure, hnodup⟩
        · exact .inl ⟨g, List.mem_cons_of_mem _ hg, hfault⟩
        · refine .inr ⟨hfailure, fun h => hnodup ?_⟩
          simpa using h

/-! ### The archive -/

/-- Sources with one archive name that are both selected are the same. -/
def NamesDiffer (selected : List Path) (sources : List ScriptSource) : Prop :=
  ∀ s ∈ sources, ∀ t ∈ sources, (∃ p ∈ selected, Produces s p) → (∃ p ∈ selected, Produces t p) →
    s.arcname = t.arcname → s = t

/-- What a selection has to satisfy to be stored. -/
structure Storable (d : Disk) (selected : List Path) (sources : List ScriptSource) : Prop where
  paths_differ : PathsDiffer sources
  known : ∀ p ∈ selected, ∃ s ∈ sources, Produces s p
  names_differ : NamesDiffer selected sources
  readable : ∀ p ∈ selected, ∃ data, d.read p = .ok data

/-- A member holds the file at a path under the name of the only source that is compiled to it. -/
def IsMember (d : Disk) (sources : List ScriptSource) (p : Path) (m : Member) : Prop :=
  (∃ s ∈ sources, Produces s p ∧ (∀ t ∈ sources, Produces t p → t = s) ∧ m.name = s.arcname)
    ∧ d.read p = .ok m.data

/-- What an archive holds: one member for each of the selected paths, which are listed without
repetition, in the order of the names. -/
structure Stores (d : Disk) (selected : List Path) (sources : List ScriptSource) (a : Archive) :
    Prop where
  members : ∃ paths : List Path, paths.Nodup ∧ (∀ p, p ∈ paths ↔ p ∈ selected)
    ∧ List.Forall₂ (IsMember d sources) paths a.members
  increasing : a.members.Pairwise fun m n => m.name < n.name

namespace Selection

theorem congr (h : Selection selected sources files) (hselected : ∀ p, p ∈ selected' ↔ p ∈ selected)
    (hsources : sources'.Perm sources) : Selection selected' sources' files where
  sorted := h.sorted
  mem_iff f := by simp only [h.mem_iff, hselected, StandsFor, hsources.mem_iff]

/-- The files have names of their own exactly if the selected sources have. -/
theorem nodup_iff (h : Selection selected sources files) (halike : WrittenAlike selected)
    (hdiffer : PathsDiffer sources) :
    (files.map Selected.arcname).Nodup ↔ NamesDiffer selected sources := by
  constructor
  · rintro hnodup s hs t ht ⟨p, hp, hsp⟩ ⟨q, hq, htq⟩ hname
    have hfile : (⟨s.arcname, p⟩ : Selected) ∈ files :=
      (h.mem_iff _).mpr ⟨p, hp, rfl, s, hs, hsp, rfl⟩
    have hfile' : (⟨t.arcname, q⟩ : Selected) ∈ files :=
      (h.mem_iff _).mpr ⟨q, hq, rfl, t, ht, htq, rfl⟩
    have hsame := List.inj_on_of_nodup_map hnodup hfile hfile' hname
    obtain rfl : p = q := congrArg Selected.path hsame
    exact hdiffer.unique hs ht (hsp.trans htq.symm)
  · intro hnames
    refine List.Nodup.map_on (fun f hf g hg hname => ?_) h.sorted.nodup
    obtain ⟨p, hp, hfp, s, hs, hsp, hfs⟩ := (h.mem_iff f).mp hf
    obtain ⟨q, hq, hgq, t, ht, htq, hgt⟩ := (h.mem_iff g).mp hg
    obtain rfl : s = t := hnames s hs t ht ⟨p, hp, hsp⟩ ⟨q, hq, htq⟩ (by rw [← hfs, hname, hgt])
    have hpath : p = q := halike p hp q hq (hsp.symm.trans htq)
    exact Selected.ext hname (by rw [hfp, hgq, hpath])

/-- If all selected paths are known, the files are at these paths, each once. -/
theorem paths (h : Selection selected sources files) (hdiffer : PathsDiffer sources)
    (hknown : ∀ p ∈ selected, ∃ s ∈ sources, Produces s p) :
    (files.map Selected.path).Nodup ∧ ∀ p, p ∈ files.map Selected.path ↔ p ∈ selected := by
  constructor
  · refine List.Nodup.map_on (fun f hf g hg hpath => ?_) h.sorted.nodup
    obtain ⟨p, -, hfp⟩ := (h.mem_iff f).mp hf
    obtain ⟨q, -, hgq⟩ := (h.mem_iff g).mp hg
    obtain rfl : p = q := by rw [← hfp.1, hpath, hgq.1]
    exact hfp.unique hdiffer hgq
  · intro p
    rw [List.mem_map]
    constructor
    · rintro ⟨f, hf, rfl⟩
      obtain ⟨p, hp, hfp, -⟩ := (h.mem_iff f).mp hf
      exact hfp ▸ hp
    · intro hp
      obtain ⟨s, hs, hproduces⟩ := hknown p hp
      exact ⟨⟨s.arcname, p⟩, (h.mem_iff _).mpr ⟨p, hp, rfl, s, hs, hproduces, rfl⟩, rfl⟩

/-- Members that hold the files are the members that the paths ask for. -/
theorem isMember (h : Selection selected sources files) (hdiffer : PathsDiffer sources)
    {members : List Member} (hmembers : List.Forall₂ (Holds d) files members) :
    List.Forall₂ (IsMember d sources) (files.map Selected.path) members := by
  have hfiles : ∀ f ∈ files, ∃ p ∈ selected, StandsFor sources p f := fun f => (h.mem_iff f).mp
  have hboth := (List.forall₂_and_left files members).mpr ⟨hfiles, hmembers⟩
  rw [List.forall₂_map_left_iff]
  refine hboth.imp ?_
  rintro f m ⟨⟨p, -, rfl, s, hs, hproduces, harcname⟩, hname, hread⟩
  refine ⟨⟨s, hs, hproduces, fun t ht htp => ?_, hname.trans harcname⟩, hread⟩
  exact hdiffer.unique ht hs (htp.trans hproduces.symm)

/-- In an archive without repeated names the members are in the order of their names. -/
theorem increasing (h : Selection selected sources files)
    (hnodup : (files.map Selected.arcname).Nodup) {members : List Member}
    (hmembers : List.Forall₂ (Holds d) files members) :
    members.Pairwise fun m n => m.name < n.name := by
  have hfiles : (files.map Selected.arcname).Pairwise (· < ·) := by
    rw [List.pairwise_map]
    refine (h.sorted.and (List.pairwise_map.mp hnodup)).imp ?_
    rintro f g ⟨hlt, hne⟩
    exact Selected.arcname_lt_of_compare hlt hne
  rw [← map_name_of_holds hmembers, List.pairwise_map] at hfiles
  exact hfiles

end Selection

/-- **When there is an archive**, and what it has to do with the files to be stored. -/
theorem archive?_eq_ok_iff (halike : WrittenAlike selected) {a : Archive} :
    archive? d selected sources = .ok a ↔ PathsDiffer sources
      ∧ (∀ p ∈ selected, ∃ s ∈ sources, Produces s p)
      ∧ ∃ files, Selection selected sources files ∧ (files.map Selected.arcname).Nodup
        ∧ List.Forall₂ (Holds d) files a.members := by
  rw [archive?, except_bind_eq_ok_iff]
  constructor
  · rintro ⟨files, hfiles, hadd⟩
    obtain ⟨hdiffer, hknown, hselection⟩ := (selection?_eq_ok_iff halike).mp hfiles
    obtain ⟨members, hmembers, ha, hnodup, -⟩ := addFiles?_eq_ok_iff.mp hadd
    rw [Archive.empty, List.nil_append] at ha
    exact ⟨hdiffer, hknown, files, hselection, hnodup, ha ▸ hmembers⟩
  · rintro ⟨hdiffer, hknown, files, hselection, hnodup, hmembers⟩
    refine ⟨files, (selection?_eq_ok_iff halike).mpr ⟨hdiffer, hknown, hselection⟩, ?_⟩
    exact addFiles?_eq_ok_iff.mpr ⟨a.members, hmembers, rfl, hnodup, by simp [Archive.empty]⟩

theorem exists_archive?_iff (halike : WrittenAlike selected) :
    (∃ a, archive? d selected sources = .ok a) ↔ Storable d selected sources := by
  constructor
  · rintro ⟨a, ha⟩
    obtain ⟨hdiffer, hknown, files, hfiles, hnodup, hmembers⟩ :=
      (archive?_eq_ok_iff halike).mp ha
    refine ⟨hdiffer, hknown, (hfiles.nodup_iff halike hdiffer).mp hnodup, fun p hp => ?_⟩
    obtain ⟨f, hf, rfl⟩ := List.mem_map.mp (((hfiles.paths hdiffer hknown).2 p).mpr hp)
    obtain ⟨m, -, -, hread⟩ := exists_of_forall₂ hmembers hf
    exact ⟨m.data, hread⟩
  · intro h
    obtain ⟨found, hfound⟩ := exists_standsFor h.known
    obtain ⟨files, hfiles⟩ : ∃ files, Selection selected sources files :=
      ⟨_, selection_of_forall₂ halike h.paths_differ hfound⟩
    have hread : ∀ f ∈ files, ∃ m, Holds d f m := by
      intro f hf
      obtain ⟨p, hp, hfp, -⟩ := (hfiles.mem_iff f).mp hf
      obtain ⟨data, hdata⟩ := h.readable p hp
      exact ⟨⟨f.arcname, data⟩, rfl, hfp ▸ hdata⟩
    obtain ⟨members, hmembers⟩ := exists_forall₂ hread
    exact ⟨⟨members⟩, (archive?_eq_ok_iff halike).mpr ⟨h.paths_differ, h.known, files, hfiles,
      (hfiles.nodup_iff halike h.paths_differ).mpr h.names_differ, hmembers⟩⟩

/-- The archive of a selection holds what is selected. -/
theorem stores_of_archive? (halike : WrittenAlike selected) {a : Archive}
    (h : archive? d selected sources = .ok a) : Stores d selected sources a := by
  obtain ⟨hdiffer, hknown, files, hfiles, hnodup, hmembers⟩ := (archive?_eq_ok_iff halike).mp h
  obtain ⟨hpaths, hmem⟩ := hfiles.paths hdiffer hknown
  exact ⟨⟨_, hpaths, hmem, hfiles.isMember hdiffer hmembers⟩, hfiles.increasing hnodup hmembers⟩

/-- Only the set of selected paths and the set of sources matter. -/
theorem archive?_congr (halike : WrittenAlike selected)
    (hselected : ∀ p, p ∈ selected' ↔ p ∈ selected) (hsources : sources'.Perm sources)
    {a : Archive} (h : archive? d selected sources = .ok a) :
    archive? d selected' sources' = .ok a := by
  obtain ⟨hdiffer, hknown, files, hfiles, hnodup, hmembers⟩ := (archive?_eq_ok_iff halike).mp h
  have halike' : WrittenAlike selected' := fun p hp q hq =>
    halike p ((hselected p).mp hp) q ((hselected q).mp hq)
  refine (archive?_eq_ok_iff halike').mpr ⟨hdiffer.perm hsources, fun p hp => ?_, files,
    hfiles.congr hselected hsources, hnodup, hmembers⟩
  obtain ⟨s, hs, hproduces⟩ := hknown p ((hselected p).mp hp)
  exact ⟨s, hsources.mem_iff.mpr hs, hproduces⟩

/-! ### Failures -/

/-- Two sources that are compiled to one path are reported before anything else. -/
theorem archive?_collision (h : ¬ PathsDiffer sources) :
    ∃ before s after, sources = before ++ s :: after ∧ PathsDiffer before
      ∧ (∃ t ∈ before, t.compiled.components = s.compiled.components)
      ∧ archive? d selected sources = .error (.duplicateCompiled s.compiled) := by
  cases hcollision : firstCollision? [] sources with
  | none => exact absurd (firstCollision?_eq_none_iff.mp hcollision).1 h
  | some s =>
    obtain ⟨before, after, hsources, hnone, t, ht, hsame⟩ := firstCollision?_eq_some hcollision
    refine ⟨before, s, after, hsources, (firstCollision?_eq_none_iff.mp hnone).1,
      ⟨t, by simpa using ht, hsame⟩, ?_⟩
    rw [archive?, selection?, hcollision]
    rfl

/-- If there is an archive, no two sources are compiled to one path. -/
theorem pathsDiffer_of_archive? {a : Archive}
    (h : archive? d selected sources = .ok a) : PathsDiffer sources := by
  by_contra hsame
  obtain ⟨-, s, -, -, -, -, hfailure⟩ := archive?_collision hsame
  cases h.symm.trans hfailure

/-- Then a path that no source is compiled to, the first one in the order of the selection. -/
theorem archive?_unknown (h : PathsDiffer sources) {before after : List Path}
    (hknown : ∀ q ∈ before, ∃ s ∈ sources, Produces s q) (hp : ∀ s ∈ sources, ¬ Produces s p) :
    archive? d (before ++ p :: after) sources = .error (.unknownCompiled p) := by
  rw [archive?, selection?, firstCollision?_eq_none_iff.mpr ⟨h, by simp⟩]
  dsimp only
  rw [selectedFiles?_unknown hknown hp]
  rfl

/-- Whatever is selected, these are the ways in which there is no archive. -/
theorem archive?_error_cases {failure : Failure}
    (h : archive? d selected sources = .error failure) :
    (∃ s ∈ sources, failure = .duplicateCompiled s.compiled)
      ∨ (∃ p ∈ selected, (∀ s ∈ sources, ¬ Produces s p) ∧ failure = .unknownCompiled p)
      ∨ (∃ files, selection? selected sources = .ok files
        ∧ ∃ f ∈ files, ∃ fault, d.read f.path = .error fault ∧ failure = .io f.path fault)
      ∨ failure = .archive := by
  by_cases hdiffer : PathsDiffer sources
  · rcases except_bind_eq_error_iff.mp h with hselection | ⟨files, hfiles, hadd⟩
    · rw [selection?, firstCollision?_eq_none_iff.mpr ⟨hdiffer, by simp⟩] at hselection
      rcases except_bind_eq_error_iff.mp hselection with hunknown | ⟨files, -, hsort⟩
      · exact .inr (.inl (selectedFiles?_error hunknown))
      · cases hsort
    · rcases addFiles?_error hadd with hread | ⟨rfl, -⟩
      · exact .inr (.inr (.inl ⟨files, hfiles, hread⟩))
      · exact .inr (.inr (.inr rfl))
  · obtain ⟨before, s, after, hsources, -, -, hcollision⟩ := archive?_collision hdiffer
    cases h.symm.trans hcollision
    exact .inl ⟨s, by simp [hsources], rfl⟩

/-- In an archive all files of the selection have been read. -/
theorem read_of_archive? {a : Archive} (h : archive? d selected sources = .ok a)
    (hfiles : selection? selected sources = .ok files) {f : Selected} (hf : f ∈ files) :
    ∃ data, d.read f.path = .ok data := by
  rw [archive?, hfiles] at h
  obtain ⟨members, hmembers, -⟩ := addFiles?_eq_ok_iff.mp h
  obtain ⟨m, -, -, hread⟩ := exists_of_forall₂ hmembers hf
  exact ⟨m.data, hread⟩

/-- Then a file that cannot be read, or a name that two files have. -/
theorem archive?_error (halike : WrittenAlike selected) (hdiffer : PathsDiffer sources)
    (hknown : ∀ p ∈ selected, ∃ s ∈ sources, Produces s p) {failure : Failure}
    (h : archive? d selected sources = .error failure) :
    (∃ p ∈ selected, ∃ fault, d.read p = .error fault ∧ failure = .io p fault)
      ∨ failure = .archive ∧ ¬ NamesDiffer selected sources := by
  obtain ⟨found, hfound⟩ := exists_standsFor hknown
  have hfiles := selection_of_forall₂ halike hdiffer hfound
  have hselection := (selection?_eq_ok_iff halike).mpr ⟨hdiffer, hknown, hfiles⟩
  rw [archive?, hselection] at h
  rcases addFiles?_error h with ⟨f, hf, fault, hfault, hfailure⟩ | ⟨hfailure, hnodup⟩
  · obtain ⟨p, hp, rfl, -⟩ := (hfiles.mem_iff f).mp hf
    exact .inl ⟨_, hp, fault, hfault, hfailure⟩
  · rw [← hfiles.nodup_iff halike hdiffer]
    exact .inr ⟨hfailure, hnodup⟩

/-- **What goes into the bundle.** Let selected paths that denote alike be written alike. There is
an archive exactly if no two sources are compiled to one path, every selected path is one that a
source is compiled to, the selected sources have names of their own, and the files can be read. It
holds each of the selected files once, under the name of its source, in the order of the names, and
depends only on which paths are selected and which sources there are. If there is none, the first
collision of sources is reported, else the first unknown path, else a file that cannot be read or a
repeated name. -/
theorem membership_exact (d : Disk) (sources : List ScriptSource) {selected : List Path}
    (halike : WrittenAlike selected) :
    ((∃ a, archive? d selected sources = .ok a) ↔ Storable d selected sources) ∧
    (∀ a, archive? d selected sources = .ok a → Stores d selected sources a) ∧
    (∀ selected' sources', (∀ p, p ∈ selected' ↔ p ∈ selected) → sources'.Perm sources →
      ∀ a, archive? d selected' sources' = .ok a ↔ archive? d selected sources = .ok a) ∧
    (¬ PathsDiffer sources → ∃ before s after, sources = before ++ s :: after
      ∧ PathsDiffer before ∧ (∃ t ∈ before, t.compiled.components = s.compiled.components)
      ∧ archive? d selected sources = .error (.duplicateCompiled s.compiled)) ∧
    (PathsDiffer sources → ∀ before p after, selected = before ++ p :: after →
      (∀ q ∈ before, ∃ s ∈ sources, Produces s q) → (∀ s ∈ sources, ¬ Produces s p) →
      archive? d selected sources = .error (.unknownCompiled p)) ∧
    (PathsDiffer sources → (∀ p ∈ selected, ∃ s ∈ sources, Produces s p) →
      ∀ failure, archive? d selected sources = .error failure →
        (∃ p ∈ selected, ∃ fault, d.read p = .error fault ∧ failure = .io p fault)
          ∨ failure = .archive ∧ ¬ NamesDiffer selected sources) := by
  refine ⟨exists_archive?_iff halike, fun a => stores_of_archive? halike, ?_, archive?_collision,
    ?_, fun hdiffer hknown failure => archive?_error halike hdiffer hknown⟩
  · intro selected' sources' hselected hsources a
    have halike' : WrittenAlike selected' := fun p hp q hq =>
      halike p ((hselected p).mp hp) q ((hselected q).mp hq)
    exact ⟨archive?_congr halike' (fun p => (hselected p).symm) hsources.symm,
      archive?_congr halike hselected hsources⟩
  · rintro hdiffer before p after rfl hknown hp
    exact archive?_unknown hdiffer hknown hp

/-! ### Two files

They are selected against the order of their names, and one of them twice. The path of one source is
written differently from the selected path. -/

def pairDisk : Disk := ⟨[], [(["b.pyc"], .file (.plain [2])), (["a.pyc"], .file (.plain [1]))]⟩

def pairSources : List ScriptSource :=
  [⟨"b", ⟨"b.py"⟩, "lib/b.py", ⟨"b.pyc"⟩, true⟩, ⟨"a", ⟨"a.py"⟩, "lib/a.py", ⟨"a.pyc/."⟩, true⟩]

def pairSelected : List Path := [⟨"b.pyc"⟩, ⟨"a.pyc"⟩, ⟨"b.pyc"⟩]

theorem pair_membership :
    let a : Archive := ⟨[⟨"lib/a.py", [1]⟩, ⟨"lib/b.py", [2]⟩]⟩
    WrittenAlike pairSelected ∧ archive? pairDisk pairSelected pairSources = .ok a
      ∧ Storable pairDisk pairSelected pairSources ∧ Stores pairDisk pairSelected pairSources a
      ∧ archive? pairDisk [⟨"a.pyc"⟩, ⟨"b.pyc"⟩] pairSources.reverse = .ok a := by
  intro a
  have halike : WrittenAlike pairSelected := by
    rw [WrittenAlike]
    decide
  have ha : archive? pairDisk pairSelected pairSources = .ok a := by decide +kernel
  obtain ⟨hexists, hstores, hcongr, -⟩ := membership_exact pairDisk pairSources halike
  have hselected : ∀ p, p ∈ ([⟨"a.pyc"⟩, ⟨"b.pyc"⟩] : List Path) ↔ p ∈ pairSelected := by
    simp [pairSelected, or_comm]
  exact ⟨halike, ha, hexists.mp ⟨a, ha⟩, hstores a ha,
    (hcongr _ _ hselected pairSources.reverse_perm a).mpr ha⟩

end Bundle

end SimMetadata
