import SimMetadata.Generation
import SimMetadata.Proofs.Disk
import SimMetadata.Proofs.Statistics

/-!
# The steps of a run

A run writes the planned files, then the compiled forms, then the bundle. Each of these steps writes
to known destinations and nowhere else, even if it fails half-way. If it succeeds, it has saved one
file for each thing that it was given, and has counted them all.

The contents of a compiled form are read from the disk on the way. If no source is at a destination
that is written to, that is what can still be read when the step is done.

## Main definitions

* `Generation.perform`: what a step does to a disk.
* `Generation.tally`: the count of some files.

## Main results

* `Generation.writes_write`: what a run may write to.
* `Generation.writeArtifacts_ok`, `Generation.compileSources_ok`, `Generation.writeBundle_ok`: what
  the steps have done when they succeed.
-/

namespace SimMetadata

open Disk

theorem CompiledForm.writes_compileFile (d : Disk) (source target : Path) :
    Writes [d.destination target] d (compileFile d source target).2 := by
  rw [compileFile]
  split
  · exact .refl _ _
  · split
    · exact .refl _ _
    · next form _ =>
      have hsave := writes_save d target (.plain form)
      split
      · next failure made hmade => rwa [hmade] at hsave
      · next made hmade => rwa [hmade] at hsave

theorem CompiledForm.compileFile_ok {d d' : Disk} {source target : Path} {length : Nat}
    (h : compileFile d source target = (.ok length, d')) :
    ∃ bytes form, d.read source = .ok bytes ∧ ofSource? source bytes = .ok form
      ∧ d.save target (.plain form) = (.ok (), d') ∧ length = (Content.plain form).size := by
  rw [compileFile] at h
  split at h
  · cases h
  · next bytes hread =>
    split at h
    · cases h
    · next form hform =>
      split at h
      · cases h
      · next made hmade =>
        cases h
        exact ⟨bytes, form, hread, hform, hmade, rfl⟩

/-- **How compiling a file fails**: the source cannot be read or is not text, and nothing has been
done, or the form cannot be saved. -/
theorem CompiledForm.compileFile_error {d d' : Disk} {source target : Path} {f : Failure}
    (h : compileFile d source target = (.error f, d')) :
    (∃ fault, d.read source = .error fault ∧ f = .io source fault ∧ d' = d)
      ∨ (∃ bytes, d.read source = .ok bytes ∧ ofSource? source bytes = .error f ∧ d' = d)
      ∨ ∃ form, d.save target (.plain form) = (.error f, d') := by
  rw [compileFile] at h
  split at h
  · next fault hread =>
    cases h
    exact .inl ⟨fault, hread, rfl, rfl⟩
  · next bytes hread =>
    split at h
    · next failure hform =>
      cases h
      exact .inr (.inl ⟨bytes, hread, hform, rfl⟩)
    · next form _ =>
      split at h
      · next failure made hmade =>
        cases h
        exact .inr (.inr ⟨form, hmade⟩)
      · cases h

theorem Bundle.writes_save (d : Disk) (target : Path) (selected : List Path)
    (sources : List ScriptSource) (zip : Archive → Bytes) :
    Writes [d.destination target] d (save d target selected sources zip).2 := by
  rw [save]
  split
  · exact .refl _ _
  · next a _ =>
    have hsave := Disk.writes_save d target (.archive (a.pack zip))
    split
    · next failure made hmade => rwa [hmade] at hsave
    · next made hmade => rwa [hmade] at hsave

theorem Bundle.save_ok {d d' : Disk} {target : Path} {selected : List Path}
    {sources : List ScriptSource} {zip : Archive → Bytes} {length : Nat}
    (h : save d target selected sources zip = (.ok length, d')) :
    ∃ a, archive? d selected sources = .ok a ∧ d.save target (.archive (a.pack zip)) = (.ok (), d')
      ∧ length = (Content.archive (a.pack zip)).size := by
  rw [save] at h
  split at h
  · cases h
  · next a ha =>
    split at h
    · cases h
    · next made hmade =>
      cases h
      exact ⟨a, ha, hmade, rfl⟩

/-- An archive that can be saved can be saved by every writer. -/
theorem Bundle.exists_save {d d' : Disk} {target : Path} {selected : List Path}
    {sources : List ScriptSource} {zip : Archive → Bytes} {length : Nat} (zip' : Archive → Bytes)
    (h : save d target selected sources zip = (.ok length, d')) :
    ∃ length' made, save d target selected sources zip' = (.ok length', made) := by
  obtain ⟨a, ha, hsave, -⟩ := save_ok h
  obtain ⟨made, hmade⟩ := Disk.exists_save (.archive (a.pack zip')) hsave
  refine ⟨(Content.archive (a.pack zip')).size, made, ?_⟩
  rw [save, ha]
  dsimp only
  rw [hmade]

/-- **How bundling fails**: there is no archive, and nothing has been done, or the archive cannot be
saved. -/
theorem Bundle.save_error {d d' : Disk} {target : Path} {selected : List Path}
    {sources : List ScriptSource} {zip : Archive → Bytes} {f : Failure}
    (h : save d target selected sources zip = (.error f, d')) :
    (archive? d selected sources = .error f ∧ d' = d)
      ∨ ∃ a, archive? d selected sources = .ok a
        ∧ d.save target (.archive (a.pack zip)) = (.error f, d') := by
  rw [save] at h
  split at h
  · next failure ha =>
    cases h
    exact .inl ⟨ha, rfl⟩
  · next a ha =>
    split at h
    · next failure made hmade =>
      cases h
      exact .inr ⟨a, ha, hmade⟩
    · cases h

namespace Generation

/-! ### Steps in sequence -/

section Sequence

variable {α β : Type} {x : Generation α} {f : α → Generation β} {d d' : Disk} {b : β}
  {locs : List Location}

/-- What a step does to a disk. -/
def perform (x : Generation α) (d : Disk) : Except Failure α × Disk := (ExceptT.run x).run d

theorem perform_bind (x : Generation α) (f : α → Generation β) (d : Disk) :
    (x >>= f).perform d =
      match x.perform d with
      | (.ok a, d') => (f a).perform d'
      | (.error failure, d') => (.error failure, d') := by
  change (match x.perform d with | (r, d') => (ExceptT.bindCont f r) d') = _
  rcases x.perform d with ⟨_ | a, d'⟩ <;> rfl

theorem perform_bind_eq_ok_iff :
    (x >>= f).perform d = (.ok b, d') ↔
      ∃ a made, x.perform d = (.ok a, made) ∧ (f a).perform made = (.ok b, d') := by
  rw [perform_bind]
  constructor
  · intro h
    split at h
    · next a made hx => exact ⟨a, made, hx, h⟩
    · cases h
  · rintro ⟨a, made, hx, h⟩
    rw [hx]
    exact h

theorem perform_bind_eq_error_iff {f' : Failure} :
    (x >>= f).perform d = (.error f', d') ↔ x.perform d = (.error f', d') ∨
      ∃ a made, x.perform d = (.ok a, made) ∧ (f a).perform made = (.error f', d') := by
  rw [perform_bind]
  rcases x.perform d with ⟨_ | a, made⟩ <;> simp

/-- Steps in sequence write to where each of them may write, however far they get. Paths lead to the
same destinations all the time. -/
theorem writes_bind (hx : Writes locs d (x.perform d).2)
    (hf : ∀ a made, made.destination = d.destination → Writes locs made ((f a).perform made).2) :
    Writes locs d ((x >>= f).perform d).2 := by
  rw [perform_bind]
  split
  · next a made h =>
    rw [h] at hx
    exact hx.trans (hf a made hx.destination)
  · next failure made h =>
    rw [h] at hx
    exact hx

end Sequence

variable {d d' : Disk} {locs : List Location} {context : RenderContext} {outDir target : Path}
  {artifacts : List Artifact} {sources : List ScriptSource} {s s' : Statistics}

/-- The count of some files. -/
def tally (files : List (Path × Content)) : Tally :=
  ⟨files.length, (files.map fun f => f.2.size).sum⟩

/-- What has been counted when one file is recorded and then some others. -/
theorem add_tally_cons (t : Tally) (f : Path × Content) (files : List (Path × Content)) :
    (t.addFile f.2.size).add (tally files) = t.add (tally (f :: files)) := by
  simp only [Tally.addFile, Tally.add, tally, List.length_cons, List.map_cons, List.sum_cons,
    Nat.add_assoc, Nat.add_comm 1]

theorem tally_append (files others : List (Path × Content)) :
    (tally files).add (tally others) = tally (files ++ others) := by
  simp only [Tally.add, tally, List.length_append, List.map_append, List.sum_append]

/-! ### Generated files -/

/-- One generated file after the other. -/
theorem writeArtifacts_cons (a : Artifact) (rest : List Artifact) (s : Statistics) :
    writeArtifacts context outDir (a :: rest) s =
      (writeArtifacts.liftExcept (a.render? context) >>= fun text =>
        writeArtifacts.writeText (outDir.join a.target) text >>= fun _ =>
          writeArtifacts context outDir rest (s.record a.kind (Text.utf8 text).length)) := rfl

theorem writes_writeArtifacts (h : ∀ a ∈ artifacts, d.destination (outDir.join a.target) ∈ locs) :
    Writes locs d ((writeArtifacts context outDir artifacts s).perform d).2 := by
  induction artifacts generalizing d s with
  | nil => exact .refl _ _
  | cons a rest ih =>
    obtain ⟨ha, hrest⟩ := List.forall_mem_cons.mp h
    rw [writeArtifacts_cons]
    refine writes_bind (.refl _ _) fun text made hmade => ?_
    rw [← hmade] at ha hrest
    have hsave := writes_save made (outDir.join a.target) (.plain (Text.utf8 text))
    exact writes_bind (hsave.mono (by simpa using ha)) fun _ saved hsaved =>
      ih (by rwa [hsaved])

/-- A file is the planned one: it is where its target is, and its text is what is printed. -/
def IsPrinted (context : RenderContext) (outDir : Path) (a : Artifact) (f : Path × Content) :
    Prop :=
  f.1 = outDir.join a.target
    ∧ ∃ text, a.render? context = .ok text ∧ f.2 = .plain (Text.utf8 text)

/-- **All planned files have been printed and saved.** -/
theorem writeArtifacts_ok
    (h : (writeArtifacts context outDir artifacts s).perform d = (.ok s', d')) :
    ∃ files, Saved d files d' ∧ List.Forall₂ (IsPrinted context outDir) artifacts files
      ∧ s'.total = s.total.add (tally files) := by
  induction artifacts generalizing d s with
  | nil =>
    cases h
    exact ⟨[], .nil _, .nil, rfl⟩
  | cons a rest ih =>
    rw [writeArtifacts_cons] at h
    obtain ⟨text, made, hrender, h⟩ := perform_bind_eq_ok_iff.mp h
    have hpair : (a.render? context, d) = (.ok text, made) := hrender
    obtain ⟨hprint, rfl⟩ := Prod.mk.inj hpair
    obtain ⟨⟨⟩, saved, hsave, h⟩ := perform_bind_eq_ok_iff.mp h
    obtain ⟨files, hsaved, hfiles, htotal⟩ := ih h
    refine ⟨_ :: files, .cons hsave hsaved, .cons ⟨rfl, text, hprint, rfl⟩ hfiles, ?_⟩
    rw [htotal, Statistics.total_record, ← add_tally_cons]
    rfl

/-! ### Compiled forms -/

/-- One source after the other. -/
theorem compileSources_cons (source : ScriptSource) (rest : List ScriptSource) (s : Statistics) :
    compileSources (source :: rest) s =
      ((fun d => CompiledForm.compileFile d source.srcpath source.compiled) >>= fun length =>
        compileSources rest (s.record "compiled" length) : Generation Statistics) := rfl

theorem writes_compileSources (h : ∀ source ∈ sources, d.destination source.compiled ∈ locs) :
    Writes locs d ((compileSources sources s).perform d).2 := by
  induction sources generalizing d s with
  | nil => exact .refl _ _
  | cons source rest ih =>
    obtain ⟨hsource, hrest⟩ := List.forall_mem_cons.mp h
    have hcompile := CompiledForm.writes_compileFile d source.srcpath source.compiled
    rw [compileSources_cons]
    exact writes_bind (hcompile.mono (by simpa using hsource)) fun length made hmade =>
      ih (by rwa [hmade])

/-- A file is the compiled form of a source as it can be read from a disk. -/
def IsCompiled (d : Disk) (source : ScriptSource) (f : Path × Content) : Prop :=
  f.1 = source.compiled ∧ ∃ bytes form, d.read source.srcpath = .ok bytes
    ∧ CompiledForm.ofSource? source.srcpath bytes = .ok form ∧ f.2 = .plain form

/-- **All sources have been compiled and saved.** If they are not written to, they are read in the
end as they were when they were compiled. -/
theorem compileSources_ok (hcompiled : ∀ source ∈ sources, d.destination source.compiled ∈ locs)
    (hsource : ∀ source ∈ sources, d.destination source.srcpath ∉ locs)
    (h : (compileSources sources s).perform d = (.ok s', d')) :
    ∃ files, Saved d files d' ∧ List.Forall₂ (IsCompiled d') sources files
      ∧ s'.total = s.total.add (tally files) := by
  induction sources generalizing d s with
  | nil =>
    cases h
    exact ⟨[], .nil _, .nil, rfl⟩
  | cons source rest ih =>
    have hwrites : Writes locs d d' := by
      have hall := writes_compileSources (s := s) hcompiled
      rwa [h] at hall
    rw [compileSources_cons] at h
    obtain ⟨length, made, hcompile, h⟩ := perform_bind_eq_ok_iff.mp h
    obtain ⟨bytes, form, hread, hform, hsave, rfl⟩ := CompiledForm.compileFile_ok hcompile
    have hfirst := writes_save d source.compiled (.plain form)
    rw [hsave] at hfirst
    rw [← hfirst.destination] at hcompiled hsource
    obtain ⟨files, hsaved, hfiles, htotal⟩ := ih (fun t ht => hcompiled t (.tail _ ht))
      (fun t ht => hsource t (.tail _ ht)) h
    rw [hfirst.destination] at hsource
    have hread' := hwrites.read hread (hsource source (.head _))
    refine ⟨_ :: files, .cons hsave hsaved,
      .cons ⟨rfl, bytes, form, hread', hform, rfl⟩ hfiles, ?_⟩
    rw [htotal, Statistics.total_record, ← add_tally_cons]

/-! ### The bundle -/

variable {zip : Archive → Bytes}

theorem writeBundle_eq (zip : Archive → Bytes) (target : Path) (sources : List ScriptSource)
    (s : Statistics) :
    writeBundle zip target sources s =
      ((fun d => Bundle.save d target (packagedForms sources) sources zip) >>= fun length =>
        pure (s.record "bundle" length) : Generation Statistics) := rfl

theorem writes_writeBundle (h : d.destination target ∈ locs) :
    Writes locs d ((writeBundle zip target sources s).perform d).2 := by
  have hsave := Bundle.writes_save d target (packagedForms sources) sources zip
  rw [writeBundle_eq]
  exact writes_bind (hsave.mono (by simpa using h)) fun _ _ _ => .refl _ _

/-- The packaged forms have been put into an archive that is saved. -/
theorem writeBundle_ok (h : (writeBundle zip target sources s).perform d = (.ok s', d')) :
    ∃ a, Bundle.archive? d (packagedForms sources) sources = .ok a
      ∧ Saved d [(target, .archive (a.pack zip))] d'
      ∧ s'.total = s.total.add (tally [(target, .archive (a.pack zip))]) := by
  rw [writeBundle_eq] at h
  obtain ⟨length, made, hbundle, h⟩ := perform_bind_eq_ok_iff.mp h
  obtain ⟨a, ha, hsave, rfl⟩ := Bundle.save_ok hbundle
  cases h
  exact ⟨a, ha, .cons hsave (.nil _), Statistics.total_record _ _ _⟩

theorem exists_writeBundle (zip' : Archive → Bytes)
    (h : (writeBundle zip target sources s).perform d = (.ok s', d')) :
    ∃ stats made, (writeBundle zip' target sources s).perform d = (.ok stats, made) := by
  rw [writeBundle_eq] at h ⊢
  obtain ⟨length, made, hbundle, -⟩ := perform_bind_eq_ok_iff.mp h
  obtain ⟨length', made', hbundle'⟩ := Bundle.exists_save zip' hbundle
  exact ⟨_, made', perform_bind_eq_ok_iff.mpr ⟨length', made', hbundle', rfl⟩⟩

/-! ### The run -/

variable {config : BuildConfig} {p : Preparation}

theorem write_eq (zip : Archive → Bytes) (config : BuildConfig) (p : Preparation) :
    write zip config p =
      (writeArtifacts p.context config.outDir p.artifacts p.statistics >>= fun s =>
        compileSources p.sources s >>= fun s =>
          writeBundle zip config.bundlePath p.sources s) := rfl

/-- Where a run writes to: the targets of the plan, the compiled forms and the bundle. -/
def outputPaths (config : BuildConfig) (p : Preparation) : List Path :=
  p.artifacts.map (fun a => config.outDir.join a.target) ++ p.sources.map ScriptSource.compiled
    ++ [config.bundlePath]

theorem mem_outputPaths_iff {path : Path} :
    path ∈ outputPaths config p ↔ (∃ a ∈ p.artifacts, config.outDir.join a.target = path)
      ∨ (∃ source ∈ p.sources, source.compiled = path) ∨ path = config.bundlePath := by
  simp only [outputPaths, List.mem_append, List.mem_map, List.mem_singleton, or_assoc]

/-- **A run writes to its outputs only,** whether it succeeds or not. -/
theorem writes_write (zip : Archive → Bytes) (d : Disk) (config : BuildConfig) (p : Preparation) :
    Writes ((outputPaths config p).map d.destination) d ((write zip config p).perform d).2 := by
  have hartifacts : ∀ a ∈ p.artifacts, d.destination (config.outDir.join a.target)
      ∈ (outputPaths config p).map d.destination := fun a ha =>
    List.mem_map_of_mem (mem_outputPaths_iff.mpr (.inl ⟨a, ha, rfl⟩))
  have hcompiled : ∀ source ∈ p.sources, d.destination source.compiled
      ∈ (outputPaths config p).map d.destination := fun source hsource =>
    List.mem_map_of_mem (mem_outputPaths_iff.mpr (.inr (.inl ⟨source, hsource, rfl⟩)))
  have hbundle : d.destination config.bundlePath ∈ (outputPaths config p).map d.destination :=
    List.mem_map_of_mem (mem_outputPaths_iff.mpr (.inr (.inr rfl)))
  rw [write_eq]
  refine writes_bind (writes_writeArtifacts hartifacts) fun s printed hprinted => ?_
  refine writes_bind (writes_compileSources (by rwa [hprinted])) fun s compiled hdone => ?_
  exact writes_writeBundle (by rwa [hdone, hprinted])

/-- Whether all is written is not up to the writer of archives. -/
theorem exists_write (zip' : Archive → Bytes)
    (h : (write zip config p).perform d = (.ok s', d')) :
    ∃ stats made, (write zip' config p).perform d = (.ok stats, made) := by
  rw [write_eq] at h ⊢
  obtain ⟨s, d₁, hprint, h⟩ := perform_bind_eq_ok_iff.mp h
  obtain ⟨s', d₂, hcompile, hbundle⟩ := perform_bind_eq_ok_iff.mp h
  obtain ⟨stats, made, hmade⟩ := exists_writeBundle zip' hbundle
  exact ⟨stats, made, perform_bind_eq_ok_iff.mpr ⟨s, d₁, hprint,
    perform_bind_eq_ok_iff.mpr ⟨s', d₂, hcompile, hmade⟩⟩⟩

end Generation

end SimMetadata
