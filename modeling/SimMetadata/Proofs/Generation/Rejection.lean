import SimMetadata.Proofs.Artifact.FlagTables
import SimMetadata.Proofs.Generation
import SimMetadata.Proofs.Generation.Outputs

/-!
# What is rejected leaves the disk alone

A run that is rejected has not begun to write. Its environment, its registry, its trace flags and
its embedded files are gathered first, and what goes wrong there is reported with the disk as it
was. Where a run that has begun to write fails, it says so: it can only fail with the disk itself,
with the tables of flags, with a source that is not text, or with the bundle.

The same holds of the steps that write files of their own. A source is compiled before the directory
of its form is made, and an archive is complete before the one from before is replaced.

## Main definitions

* `Generation.flags?`: the trace flags of a run.
* `Generation.Rejects`: what a run is rejected for.
* `Failure.isOfWriting`: the failures of a run that has begun to write.

## Main results

* `Generation.prepare?_eq_error_iff`: a run is rejected before it begins to write.
* `Generation.isOfWriting_of_write`: how a run fails that has begun to write.
* `Generation.rejected_untouched`: what is rejected leaves the disk alone.
-/

namespace SimMetadata

/-- Whether a run can fail in this way when it has begun to write. -/
def Failure.isOfWriting : Failure → Bool
  | invalidFlags _ | invalidSource _ | duplicateCompiled _ | archive | io _ _ => true
  | _ => false

namespace Generation

variable {d d' : Disk} {config : BuildConfig} {p : Preparation} {f : Failure}
  {versionControl : Provenance.Lookup} {context : RenderContext} {artifacts : List Artifact}
  {outDir target : Path} {sources : List ScriptSource} {s : Statistics} {zip : Archive → Bytes}

/-! ### Before a run writes -/

/-- The trace flags of a run: those of a file, if one is named. -/
def flags? (d : Disk) (config : BuildConfig) : Except Failure (List TraceFlag) :=
  match config.flagsPath? with
  | some path => TraceFlag.load? d path
  | none => .ok []

/-- What a run is rejected for: the first of the things it gathers that is not in order. -/
inductive Rejects (d : Disk) (config : BuildConfig) (f : Failure) : Prop where
  /-- The environment. -/
  | env (h : config.env? = .error f)
  /-- The registry of the sources that are found. -/
  | registry {env : BuildEnv} (henv : config.env? = .ok env)
    (h : Registry.ofSources? d config.scriptSources config.objects env = .error f)
  /-- The trace flags. -/
  | flags {env : BuildEnv} {r : Registry} (henv : config.env? = .ok env)
    (hregistry : Registry.ofSources? d config.scriptSources config.objects env = .ok r)
    (h : flags? d config = .error f)
  /-- The embedded files. -/
  | info {env : BuildEnv} {r : Registry} {flags : List TraceFlag} (henv : config.env? = .ok env)
    (hregistry : Registry.ofSources? d config.scriptSources config.objects env = .ok r)
    (hflags : flags? d config = .ok flags) (h : readInfoFiles? d config config.infoFiles = .error f)

/-- What is gathered, in order. -/
theorem prepare?_eq :
    prepare? versionControl d config =
      (config.env? >>= fun env =>
        Registry.ofSources? d config.scriptSources config.objects env >>= fun registry =>
          flags? d config >>= fun flags =>
            readInfoFiles? d config config.infoFiles >>= fun info => .ok {
              context := ⟨registry, env, flags,
                Provenance.probe versionControl d config.provenanceDir⟩
              sources := config.scriptSources
              artifacts := Artifact.plan registry config.scriptSources config.bindingModules
                config.flags.isSome info }) := by
  rw [prepare?, flags?]
  cases config.flagsPath? <;> rfl

/-- **A run is rejected before it begins to write.** -/
theorem prepare?_eq_error_iff :
    prepare? versionControl d config = .error f ↔ Rejects d config f := by
  simp only [prepare?_eq, except_bind_eq_error_iff]
  constructor
  · rintro (henv | ⟨env, henv, hregistry | ⟨r, hregistry, hflags | ⟨flags, hflags,
      hinfo | ⟨info, -, hprepared⟩⟩⟩⟩)
    · exact .env henv
    · exact .registry henv hregistry
    · exact .flags henv hregistry hflags
    · exact .info henv hregistry hflags hinfo
    · cases hprepared
  · intro h
    cases h with
    | env h => exact .inl h
    | registry henv h => exact .inr ⟨_, henv, .inl h⟩
    | flags henv hregistry h => exact .inr ⟨_, henv, .inr ⟨_, hregistry, .inl h⟩⟩
    | info henv hregistry hflags h =>
      exact .inr ⟨_, henv, .inr ⟨_, hregistry, .inr ⟨_, hflags, .inl h⟩⟩⟩

theorem generate_of_rejects (h : Rejects d config f) :
    config.generate versionControl d zip = (.error f, d) := by
  rw [BuildConfig.generate, prepare?_eq_error_iff.mpr h]

/-! ### After a run has begun to write -/

/-- A planned file that cannot be printed is a table of flags. -/
theorem invalidFlags_of_render? (hclosed : context.registry.IsClosed) {a : Artifact}
    {bindingModules : List String} {withFlags : Bool} {info : List EmbeddedFile}
    (hplan : a ∈ Artifact.plan context.registry sources bindingModules withFlags info)
    (h : a.render? context = .error f) : ∃ fault, f = .invalidFlags fault := by
  cases hflag : a.isFlagTable with
  | true => exact TraceFlag.validate?_error ((Artifact.render?_eq_error_iff hflag f).mp h)
  | false =>
    obtain ⟨text, htext⟩ := Artifact.exists_render?_ok hclosed hplan hflag
    cases h.symm.trans htext

theorem isOfWriting_of_save {c : Content} (h : d.save target c = (.error f, d')) :
    f.isOfWriting = true := by
  obtain ⟨path, fault, rfl⟩ := Disk.save_error h
  rfl

theorem isOfWriting_of_writeArtifacts
    (hrender : ∀ a ∈ artifacts, ∀ f, a.render? context = .error f → f.isOfWriting = true)
    (h : (writeArtifacts context outDir artifacts s).perform d = (.error f, d')) :
    f.isOfWriting = true := by
  induction artifacts generalizing d s with
  | nil => cases h
  | cons a rest ih =>
    obtain ⟨ha, hrest⟩ := List.forall_mem_cons.mp hrender
    rw [writeArtifacts_cons] at h
    rcases perform_bind_eq_error_iff.mp h with hprint | ⟨text, made, -, h⟩
    · exact ha f (congrArg Prod.fst hprint)
    rcases perform_bind_eq_error_iff.mp h with hsave | ⟨⟨⟩, saved, -, h⟩
    · exact isOfWriting_of_save hsave
    · exact ih hrest h

theorem isOfWriting_of_compileSources
    (h : (compileSources sources s).perform d = (.error f, d')) : f.isOfWriting = true := by
  induction sources generalizing d s with
  | nil => cases h
  | cons source rest ih =>
    rw [compileSources_cons] at h
    rcases perform_bind_eq_error_iff.mp h with hcompile | ⟨length, made, -, h⟩
    · rcases CompiledForm.compileFile_error hcompile with
        ⟨fault, -, rfl, -⟩ | ⟨bytes, -, hform, -⟩ | ⟨form, hsave⟩
      · rfl
      · obtain ⟨-, rfl⟩ := CompiledForm.ofSource?_eq_error_iff.mp hform
        rfl
      · exact isOfWriting_of_save hsave
    · exact ih h

/-- Every packaged form is known to the bundle, because its source is there. -/
theorem isOfWriting_of_archive?
    (h : Bundle.archive? d (packagedForms sources) sources = .error f) : f.isOfWriting = true := by
  rcases Bundle.archive?_error_cases h with ⟨s, -, rfl⟩ | ⟨form, hform, hunknown, -⟩
    | ⟨files, -, file, -, fault, -, rfl⟩ | rfl
  · rfl
  · obtain ⟨source, hsource, rfl⟩ := List.mem_map.mp hform
    exact absurd rfl (hunknown source (List.mem_filter.mp hsource).1)
  · rfl
  · rfl

theorem isOfWriting_of_writeBundle
    (h : (writeBundle zip target sources s).perform d = (.error f, d')) : f.isOfWriting = true := by
  rw [writeBundle_eq] at h
  rcases perform_bind_eq_error_iff.mp h with hbundle | ⟨length, made, -, h⟩
  · rcases Bundle.save_error hbundle with ⟨harchive, -⟩ | ⟨a, -, hsave⟩
    · exact isOfWriting_of_archive? harchive
    · exact isOfWriting_of_save hsave
  · cases h

/-- **How a run fails that has begun to write**, on whatever disk it goes on. -/
theorem isOfWriting_of_write {made : Disk} (hprepared : Prepared d config p)
    (h : (write zip config p).perform made = (.error f, d')) : f.isOfWriting = true := by
  obtain ⟨info, -, hplan⟩ := hprepared.artifacts
  rw [write_eq] at h
  rcases perform_bind_eq_error_iff.mp h with h | ⟨s, printed, -, h⟩
  · refine isOfWriting_of_writeArtifacts (fun a ha f hf => ?_) h
    obtain ⟨fault, rfl⟩ := invalidFlags_of_render?
      (Registry.isClosed_of_discover hprepared.registry) (hplan ▸ ha) hf
    rfl
  rcases perform_bind_eq_error_iff.mp h with h | ⟨s, compiled, -, h⟩
  · exact isOfWriting_of_compileSources h
  · exact isOfWriting_of_writeBundle h

/-- A run that fails in any other way has been rejected. -/
theorem rejects_of_generate (h : config.generate versionControl d zip = (.error f, d'))
    (hf : f.isOfWriting = false) : Rejects d config f := by
  cases hprepare : prepare? versionControl d config with
  | error failure =>
    have hrejects := prepare?_eq_error_iff.mp hprepare
    rw [generate_of_rejects hrejects] at h
    cases h
    exact hrejects
  | ok p =>
    rw [generate_of_prepare? hprepare] at h
    rw [isOfWriting_of_write (prepared_of_prepare? hprepare) h] at hf
    cases hf

/-! ### What is left alone -/

/-- **What is rejected leaves the disk alone.** This holds of a run whose environment, registry,
trace flags or embedded files are not in order, so of every run that fails in another way than one
that writes. It holds of a source that cannot be read or is not text, whatever stands at the
destination. And it holds of a bundle for which there is no archive: if one of its files cannot be
read, and if it fails in any way but with a fault of the disk. An archive that is at the target is
still there. How archives are written does not matter for any of it. -/
theorem rejected_untouched (versionControl : Provenance.Lookup) (zip : Archive → Bytes) (d : Disk) :
    (∀ (config : BuildConfig) (f : Failure),
      (Rejects d config f → config.generate versionControl d zip = (.error f, d))
        ∧ ∀ d', config.generate versionControl d zip = (.error f, d') → f.isOfWriting = false →
          Rejects d config f ∧ d' = d) ∧
    (∀ source target : Path,
      (∀ fault, d.read source = .error fault →
        CompiledForm.compileFile d source target = (.error (.io source fault), d))
        ∧ ∀ path d',
          CompiledForm.compileFile d source target = (.error (.invalidSource path), d') → d' = d) ∧
    (∀ (target : Path) (selected : List Path) (sources : List ScriptSource),
      (∀ f, Bundle.archive? d selected sources = .error f →
        Bundle.save d target selected sources zip = (.error f, d))
        ∧ (∀ files, Bundle.selection? selected sources = .ok files → ∀ file ∈ files, ∀ fault,
          d.read file.path = .error fault →
            ∃ f, Bundle.save d target selected sources zip = (.error f, d))
        ∧ ∀ f d', Bundle.save d target selected sources zip = (.error f, d') →
          (∀ path fault, f ≠ .io path fault) → d' = d) := by
  refine ⟨fun config f => ⟨generate_of_rejects, fun d' h hf => ?_⟩,
    fun source target => ⟨fun fault hread => ?_, fun path d' h => ?_⟩,
    fun target selected sources => ?_⟩
  · have hrejects := rejects_of_generate h hf
    rw [generate_of_rejects hrejects] at h
    cases h
    exact ⟨hrejects, rfl⟩
  · rw [CompiledForm.compileFile, hread]
  · rcases CompiledForm.compileFile_error h with ⟨-, -, -, hd⟩ | ⟨-, -, -, hd⟩ | ⟨form, hsave⟩
    · exact hd
    · exact hd
    · obtain ⟨path', fault, hf⟩ := Disk.save_error hsave
      cases hf
  · have hnone : ∀ f, Bundle.archive? d selected sources = .error f →
        Bundle.save d target selected sources zip = (.error f, d) := by
      intro f h
      rw [Bundle.save, h]
    refine ⟨hnone, fun files hfiles file hfile fault hfault => ?_, fun f d' h hf => ?_⟩
    · cases harchive : Bundle.archive? d selected sources with
      | error f => exact ⟨f, hnone f harchive⟩
      | ok a =>
        obtain ⟨data, hdata⟩ := Bundle.read_of_archive? harchive hfiles hfile
        cases hfault.symm.trans hdata
    · rcases Bundle.save_error h with ⟨-, hd⟩ | ⟨a, -, hsave⟩
      · exact hd
      · obtain ⟨path, fault, rfl⟩ := Disk.save_error hsave
        exact absurd rfl (hf path fault)

/-! ### A class that nothing declares

A bundle from an earlier run is on the disk, and a source that is not text. -/

def ghostConfig : BuildConfig := { toolConfig with objects := ["Ghost"] }

def oldArchive : ZipFile := Archive.pack Archive.toBytes ⟨[⟨"tool.py", [1]⟩]⟩

def ghostDisk : Disk :=
  { toolDisk with nodes := (["work", "build"], .directory)
      :: (["work", "build", "objects.zip"], .file (.archive oldArchive))
      :: (["work", "broken.py"], .file (.plain [255])) :: toolDisk.nodes }

theorem ghost_untouched :
    Rejects ghostDisk ghostConfig (.unresolvedClass "Ghost")
      ∧ ghostConfig.generate (fun _ => none) ghostDisk
        = (.error (.unresolvedClass "Ghost"), ghostDisk)
      ∧ ghostDisk.find ghostConfig.bundlePath = .ok (.file (.archive oldArchive))
      ∧ CompiledForm.compileFile ghostDisk ⟨"broken.py"⟩ ⟨"lib/broken.pyc"⟩
        = (.error (.invalidSource ⟨"broken.py"⟩), ghostDisk)
      ∧ ∃ f, Bundle.save ghostDisk ghostConfig.bundlePath [⟨"./build/tool.pyc"⟩]
        ghostConfig.scriptSources = (.error f, ghostDisk) := by
  obtain ⟨hgenerate, hcompile, hbundle⟩ :=
    rejected_untouched (fun _ => none) Archive.toBytes ghostDisk
  have henv : ghostConfig.env? = .ok BuildEnv.empty := by decide +kernel
  have hregistry : Registry.ofSources? ghostDisk ghostConfig.scriptSources ghostConfig.objects
      BuildEnv.empty = .error (.unresolvedClass "Ghost") := by
    decide +kernel
  have hrejects : Rejects ghostDisk ghostConfig (.unresolvedClass "Ghost") :=
    .registry henv hregistry
  have hbroken : (CompiledForm.compileFile ghostDisk ⟨"broken.py"⟩ ⟨"lib/broken.pyc"⟩).1
      = .error (.invalidSource ⟨"broken.py"⟩) := by
    decide +kernel
  have hselection : Bundle.selection? [⟨"./build/tool.pyc"⟩] ghostConfig.scriptSources
      = .ok [⟨"tool.py", ⟨"./build/tool.pyc"⟩⟩] := by
    decide +kernel
  have hunread : ghostDisk.read ⟨"./build/tool.pyc"⟩ = .error .notFound := by decide +kernel
  refine ⟨hrejects, (hgenerate _ _).1 hrejects, by decide +kernel, Prod.ext hbroken ?_,
    (hbundle _ _ _).2.1 _ hselection _ List.mem_cons_self _ hunread⟩
  exact (hcompile _ _).2 _ _ (Prod.ext hbroken rfl)

end Generation

end SimMetadata
