import SimMetadata.Proofs.Discovery.Progress

/-!
# What discovery reads

A walk that succeeds has asked which mapped files exist, and it has read the manifests that it
installed. Nothing else on the disk matters to it: on a disk that shows it the same, the walk goes
the same way, step by step, and gives the same answer. A manifest that is mapped and never loaded
may say anything, or not parse at all.

## Main definitions

* `Loader.manifestFiles`: the files of the manifests that a loader has installed.
* `Loader.SeesAlike`: two disks show a loader the same, as far as it has looked.
* `Discovery.Replays`: a step that succeeds on one disk does the same on the other one.

## Main results

* `Loader.SeesAlike.loadChain_eq`: a load is replayed, with the packages around the module.
* `Discovery.replays_importModule`: so is the import of a module, with all that it leads to.
* `Discovery.replays_explore`: so is the whole walk.

## Implementation notes

What a loader has looked at is known when it is done. So the relation is about the loader that a
step leaves behind, and it is passed back to the loader that the step began with: loading never
changes what a name stands for, so what has been installed in between does not matter.
-/

namespace SimMetadata

variable {d d' : Disk}

namespace Loader

variable {l l₁ : Loader} {name : String}

/-- The files of the manifests that the loader has installed. -/
def manifestFiles (l : Loader) : List Path :=
  l.host.entries.filterMap fun
    | (name, .manifest path _) => if l.installed.contains name then some path else none
    | _ => none

theorem mem_manifestFiles {path : Path} :
    path ∈ l.manifestFiles ↔ ∃ name m, l.installed.contains name = true
      ∧ l.host.get? name = some (.manifest path m) := by
  simp only [NameMap.get?_eq_some_iff, manifestFiles, List.mem_filterMap]
  constructor
  · rintro ⟨e, hmem, hpath⟩
    split at hpath
    · next name p m =>
      obtain ⟨hi, rfl⟩ : l.installed.contains name = true ∧ p = path := by simpa using hpath
      exact ⟨name, m, hi, hmem⟩
    · cases hpath
  · rintro ⟨name, m, hi, hmem⟩
    exact ⟨_, hmem, by simp [hi]⟩

/-- The second disk shows the loader what the first one does: the same mapped files exist, and the
files of the manifests that the loader has installed hold the same. -/
structure SeesAlike (d d' : Disk) (l : Loader) : Prop where
  present : ∀ name path, l.sources.get? name = some path → d'.present path = d.present path
  read : ∀ path ∈ l.manifestFiles, d'.read path = d.read path

namespace SeesAlike

theorem resolve?_eq (h : l.SeesAlike d d') (name : String) :
    l.resolve? d' name = l.resolve? d name := by
  rw [resolve?, resolve?]
  cases hpath : l.sources.get? name with
  | none => rfl
  | some path =>
    dsimp only
    rw [h.present name path hpath]

/-- A loader that has recorded one more module has looked at one more file at most. -/
theorem of_record {m : Module} (h : (l.record name m).SeesAlike d d')
    (hstands : l.standsFor? d name = .ok (some m)) : l.SeesAlike d d' where
  present := h.present
  read path hpath := by
    obtain ⟨other, mf, hi, hhost⟩ := mem_manifestFiles.mp hpath
    refine h.read path (mem_manifestFiles.mpr ⟨other, mf, ?_, ?_⟩)
    · rw [record, NameSet.add, NameMap.contains_insert, hi, Bool.or_true]
    · rw [record, NameMap.get?_insert]
      split
      · next heq =>
        subst heq
        rw [standsFor?_of_host hhost] at hstands
        cases hstands
        rfl
      · exact hhost

theorem of_loads (h : l₁.SeesAlike d d') (hl : l.Loads d l₁) : l.SeesAlike d d' := by
  induction hl with
  | refl => exact h
  | record _ _ hstands ih => exact ih (h.of_record hstands)

/-- The module that has been recorded is the one that the name resolves to on the other disk. -/
theorem moduleOf_eq {m : Module} {r : Resolution} (h : (l.record name m).SeesAlike d d')
    (hm : l.moduleOf d r = .ok m) : l.moduleOf d' r = .ok m := by
  cases r with
  | env => exact hm
  | package => exact hm
  | source path =>
    obtain ⟨mf, hload, hmf⟩ := except_bind_eq_ok_iff.mp hm
    cases hmf
    have hread : d'.read path = d.read path :=
      h.read path (mem_manifestFiles.mpr ⟨name, mf,
        NameMap.contains_of_get? (NameMap.get?_insert_self _ _ _), NameMap.get?_insert_self _ _ _⟩)
    have hload' : Manifest.load? d' path = Manifest.load? d path := by
      rw [Manifest.load?, Manifest.load?, Disk.readText, Disk.readText, hread]
    rw [moduleOf, hload']
    exact hm

/-- **A load that succeeds is replayed**, with the packages around the module. -/
theorem loadChain_eq {names : List String} {found : Option Module} (hs : l₁.SeesAlike d d')
    (h : loadChain d names l = (.ok found, l₁)) : loadChain d' names l = (.ok found, l₁) := by
  induction names generalizing found l₁ with
  | nil => exact h
  | cons name around ih =>
    rw [loadChain_cons_eq_ok_iff] at h ⊢
    rcases h with ⟨m, hhost, rfl, rfl⟩ | ⟨hhost, hr, rfl, rfl⟩
      | ⟨r, a, l₂, m, hhost, hr, hbefore, hm, rfl, rfl⟩
    · exact .inl ⟨m, hhost, rfl, rfl⟩
    · exact .inr (.inl ⟨hhost, by rw [hs.resolve?_eq, hr], rfl, rfl⟩)
    · have haround := loads_loadChain d around l
      rw [hbefore] at haround
      have hstands : l₂.standsFor? d name = .ok (some m) := by
        rw [haround.standsFor?_eq, standsFor?_of_resolve? hhost hr, ← haround.moduleOf_eq, hm]
        rfl
      have hs₂ := hs.of_record hstands
      refine .inr (.inr ⟨r, a, l₂, m, hhost, ?_, ih hs₂ hbefore, hs.moduleOf_eq hm, rfl, rfl⟩)
      rw [(hs₂.of_loads haround).resolve?_eq, hr]

end SeesAlike

end Loader

namespace Discovery

variable {α β : Type} {settings : BuildEnv}

/-- Where the first step succeeds and the second disk shows the loader in the end what the first one
does, it has shown it the same in the beginning, and the second step does the same. -/
def Replays (d d' : Disk) (s s' : Discovery α) : Prop :=
  ∀ ⦃w a w'⦄, outcome s w = (.ok a, w') → w'.loader.SeesAlike d d' →
    w.loader.SeesAlike d d' ∧ outcome s' w = (.ok a, w')

namespace Replays

/-- A step that leaves the loader alone is replayed by itself. -/
theorem of_loader_eq {s : Discovery α}
    (h : ∀ ⦃w a w'⦄, outcome s w = (.ok a, w') → w'.loader = w.loader) : Replays d d' s s :=
  fun _ _ _ hs hsees => ⟨h hs ▸ hsees, hs⟩

theorem pure (a : α) : Replays d d' (Pure.pure a : Discovery α) (Pure.pure a) :=
  of_loader_eq fun _ _ _ h => by cases h; rfl

theorem throw (f : Failure) :
    Replays d d' (MonadExcept.throw f : Discovery α) (MonadExcept.throw f) :=
  of_loader_eq fun _ _ _ h => by cases h

theorem bind {s s' : Discovery α} {f f' : α → Discovery β} (hs : Replays d d' s s')
    (hf : ∀ a, Replays d d' (f a) (f' a)) : Replays d d' (s >>= f) (s' >>= f') := by
  intro w b w₂ h hsees
  obtain ⟨a, w₁, hfirst, hrest⟩ := bind_eq_ok_iff.mp h
  obtain ⟨hmid, hrest'⟩ := hf a hrest hsees
  obtain ⟨hbegin, hfirst'⟩ := hs hfirst hmid
  exact ⟨hbegin, bind_eq_ok_iff.mpr ⟨a, w₁, hfirst', hrest'⟩⟩

/-- A step that depends on the walk is replayed if it is for every walk. -/
theorem get_bind {f f' : Walk → Discovery β} (hf : ∀ w, Replays d d' (f w) (f' w)) :
    Replays d d' (get >>= f) (get >>= f') :=
  fun w _ _ h hsees => hf w h hsees

theorem congruence : Congruence (Replays d d') where
  pure := Replays.pure
  throw := Replays.throw
  knows _ := of_loader_eq fun _ _ _ h => by cases h; rfl
  bind := Replays.bind

end Replays

theorem replays_load (name : String) : Replays d d' (load d name) (load d' name) := by
  intro w found w' h hsees
  rw [outcome_load] at h ⊢
  rcases hload : w.loader.load d name with ⟨answer, l⟩
  rw [hload] at h
  cases h
  have hl := Loader.loads_load w.loader d name
  rw [hload] at hl
  refine ⟨hsees.of_loads hl, ?_⟩
  rw [show w.loader.load d' name = (.ok found, l) from hsees.loadChain_eq hload]

theorem replays_register {visit visit' : String → Discovery Bool}
    (hv : ∀ name, Replays d d' (visit name) (visit' name)) (moduleName : String) (m : Manifest) :
    Replays d d' (register settings visit moduleName m)
      (register settings visit' moduleName m) := by
  refine (Replays.congruence.importNamed visit visit' hv moduleName m.imports).bind fun _ =>
    Replays.bind (.of_loader_eq fun w _ w' h => ?_) fun _ =>
      Replays.bind (.of_loader_eq fun w _ w' h => ?_) fun _ =>
        (Replays.congruence.importParents visit visit' hv m.classes).bind fun _ =>
          Replays.get_bind fun _ => Replays.congruence.importClasses visit visit' hv _
  · obtain ⟨enums, rfl, -⟩ := declareEnums_ok h
    rfl
  · obtain ⟨classes, rfl, -⟩ := declareClasses_ok h
    rfl

/-- **An import that succeeds is replayed.** The induction is on the bound. -/
theorem replays_importModule (bound : ℕ) (name : String) :
    Replays d d' (importModule d settings bound name) (importModule d' settings bound name) := by
  induction bound generalizing name with
  | zero => exact (replays_load name).bind fun _ => Replays.pure _
  | succ bound ih =>
    refine (replays_load name).bind fun found => ?_
    cases found with
    | none => exact Replays.pure false
    | some found =>
      refine Replays.get_bind fun w => ?_
      split
      · refine Replays.bind (.of_loader_eq fun _ _ _ h => by cases h; rfl) fun _ => ?_
        cases found with
        | manifest path m => exact (replays_register ih name m).bind fun _ => Replays.pure true
        | _ => exact Replays.pure true
      · exact Replays.pure true

theorem replays_exposedEnv : Replays d d' (exposedEnv d) (exposedEnv d') :=
  (replays_load envModule).bind fun found => by
    split
    · exact Replays.pure _
    · exact Replays.throw _

/-- **A walk that succeeds is replayed.** -/
theorem replays_explore (requested : List String) :
    Replays d d' (explore d requested) (explore d' requested) := by
  refine replays_exposedEnv.bind fun env => Replays.get_bind fun w =>
    (replays_importModule _ _).bind fun _ => (Replays.congruence.knows _).bind fun _ => ?_
  split
  · exact (Replays.congruence.importRequested _ _ (replays_importModule _) _).bind
      fun _ => Replays.pure _
  · exact Replays.throw _

end Discovery

end SimMetadata
