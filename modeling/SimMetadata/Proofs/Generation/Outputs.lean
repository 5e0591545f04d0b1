import SimMetadata.Proofs.Bundle
import SimMetadata.Proofs.CompiledForm
import SimMetadata.Proofs.Generation.Steps
import SimMetadata.Proofs.Text.Utf8

/-!
# What a run leaves behind

The outputs of a run are the planned files, the compiled forms and the bundle. If they lead to
different destinations and no source is at one of them, nothing that a run writes is overwritten
later, and the sources are read as they were before the run. So when the run succeeds, every output
is what its step has made of the registry and the sources, and the bundle holds the forms that are
found beside it.

Nothing here depends on how an archive is written, so the writer is any function. It decides how
many bytes the bundle has and nothing else, not even whether there is one.

## Main definitions

* `Generation.OutputsApart`: the outputs do not get in each other's way.
* `Generation.IsBundled`: what a member of the bundle has of a source.
* `Generation.Written`: what has been saved by a run that succeeds.
* `Generation.Generated`: what such a run leaves behind.

## Main results

* `Generation.packaged_members`: what the archive of the packaged forms holds.
* `Generation.exists_generate`: a run that succeeds does so with every writer of archives.
* `Generation.outputs_exact`: what a run leaves behind, and what it leaves alone.
-/

namespace SimMetadata

open Disk

namespace Generation

variable {d d' : Disk} {sources : List ScriptSource} {config : BuildConfig} {p : Preparation}
  {versionControl : Provenance.Lookup} {stats : Statistics} {zip : Archive → Bytes}

/-! ### The packaged forms -/

theorem writtenAlike_packagedForms (h : Bundle.PathsDiffer sources) :
    Bundle.WrittenAlike (packagedForms sources) := by
  intro p hp q hq hsame
  obtain ⟨s, hs, rfl⟩ := List.mem_map.mp hp
  obtain ⟨t, ht, rfl⟩ := List.mem_map.mp hq
  rw [h.unique (List.mem_filter.mp hs).1 (List.mem_filter.mp ht).1 hsame]

theorem nodup_packagedForms (h : Bundle.PathsDiffer sources) : (packagedForms sources).Nodup := by
  have hcompiled : (sources.map ScriptSource.compiled).Nodup := by
    refine List.Nodup.of_map Path.components ?_
    rwa [List.map_map]
  exact hcompiled.sublist (List.filter_sublist.map _)

/-- **What the archive of the packaged forms holds**: one member for each packaged source, under its
name, with the form that is read from its path. -/
theorem packaged_members {a : Archive}
    (h : Bundle.archive? d (packagedForms sources) sources = .ok a) :
    ∃ members : List Member, members.Perm a.members ∧
      List.Forall₂ (fun source m => m.name = source.arcname ∧ d.read source.compiled = .ok m.data)
        (sources.filter ScriptSource.isPackaged) members := by
  have hdiffer := Bundle.pathsDiffer_of_archive? h
  have hstores := Bundle.stores_of_archive? (writtenAlike_packagedForms hdiffer) h
  obtain ⟨paths, hnodup, hmem, hmembers⟩ := hstores.members
  have hperm : (packagedForms sources).Perm paths :=
    (List.perm_ext_iff_of_nodup (nodup_packagedForms hdiffer) hnodup).mpr fun p => (hmem p).symm
  obtain ⟨members, hforms, hsame⟩ :=
    List.perm_comp_forall₂ hperm hmembers
  refine ⟨members, hsame, ?_⟩
  refine forall₂_imp_of_mem (List.forall₂_map_left_iff.mp hforms) ?_
  rintro source hsource m ⟨⟨s, hs, hproduces, -, hname⟩, hread⟩
  have hsame : source = s :=
    hdiffer.unique (List.mem_filter.mp hsource).1 hs hproduces.symm
  exact ⟨hsame ▸ hname, hread⟩

/-! ### The plan -/

/-- What a run has prepared: the registry of the sources that are found, and the plan for it. -/
structure Prepared (d : Disk) (config : BuildConfig) (p : Preparation) : Prop where
  env : config.env? = .ok p.context.env
  sources : p.sources = config.scriptSources
  registry : Registry.ofSources? d p.sources config.objects p.context.env = .ok p.context.registry
  artifacts : ∃ info, readInfoFiles? d config config.infoFiles = .ok info ∧
    p.artifacts = Artifact.plan p.context.registry p.sources config.bindingModules
      config.flags.isSome info

theorem prepared_of_prepare? (h : prepare? versionControl d config = .ok p) :
    Prepared d config p := by
  rw [prepare?] at h
  obtain ⟨env, henv, h⟩ := except_bind_eq_ok_iff.mp h
  obtain ⟨registry, hregistry, h⟩ := except_bind_eq_ok_iff.mp h
  split at h
  all_goals
    obtain ⟨flags, -, h⟩ := except_bind_eq_ok_iff.mp h
    obtain ⟨info, hinfo, h⟩ := except_bind_eq_ok_iff.mp h
    cases h
    exact ⟨henv, rfl, hregistry, info, hinfo, rfl⟩

/-! ### The outputs -/

/-- The outputs of a run lead to different destinations, and no source is at one of them. -/
structure OutputsApart (d : Disk) (config : BuildConfig) (p : Preparation) : Prop where
  differ : ((outputPaths config p).map d.destination).Nodup
  sources : ∀ source ∈ p.sources,
    d.destination source.srcpath ∉ (outputPaths config p).map d.destination

/-- Some bytes are what a source holds, before a run and after it. Before the run the path of the
source may lead through directories that are still to be made, so it is its destination that is
looked at. -/
structure Keeps (d d' : Disk) (source : ScriptSource) (bytes : Bytes) : Prop where
  before : ∃ c, d.node? (d.destination source.srcpath) = some (.file c) ∧ c.bytes = bytes
  after : d'.read source.srcpath = .ok bytes

/-- A member of a bundle has the name of a source, and the text of the source as its payload, with a
line feed in the place of each pair of carriage return and line feed. -/
def IsBundled (d d' : Disk) (source : ScriptSource) (m : Member) : Prop :=
  m.name = source.arcname ∧ ∃ (text : String) (pieces : List (List Char)),
    Keeps d d' source (Text.utf8 text)
      ∧ (∀ piece ∈ pieces, ¬ Text.crlf <:+: piece)
      ∧ text.toList = Text.crlf.intercalate pieces
      ∧ CompiledForm.payload? m.data = some (Text.utf8 (String.ofList (['\n'].intercalate pieces)))

/-- What a run leaves behind when it succeeds. -/
structure Generated (zip : Archive → Bytes) (d d' : Disk) (config : BuildConfig) (p : Preparation)
    (stats : Statistics) : Prop where
  /-- Every planned file holds what is printed for the registry. -/
  printed : ∀ a ∈ p.artifacts, ∃ text, a.render? p.context = .ok text
    ∧ d'.read (config.outDir.join a.target) = .ok (Text.utf8 text)
  /-- Every compiled form is the form of its source. -/
  compiled : ∀ source ∈ p.sources, ∃ bytes form, Keeps d d' source bytes
    ∧ CompiledForm.ofSource? source.srcpath bytes = .ok form
    ∧ d'.read source.compiled = .ok form
  /-- The bundle is an archive as it is written, with one member for each packaged source. -/
  bundle : ∃ archive, d'.find config.bundlePath = .ok (.file (.archive ⟨archive, zip archive⟩)) ∧
    ∃ members : List Member, members.Perm archive.members ∧
      List.Forall₂ (IsBundled d d') (p.sources.filter ScriptSource.isPackaged) members
  /-- All outputs are counted with their bytes. -/
  counted : ∃ sizes : List Nat,
    List.Forall₂ (fun path size => ∃ bytes, d'.read path = .ok bytes ∧ bytes.length = size)
        (outputPaths config p) sizes
      ∧ stats.total = ⟨p.artifacts.length + p.sources.length + 1, sizes.sum⟩

/-- The paths of some files that are related one by one to what they have been made of. -/
theorem map_path_of_forall₂ {α : Type} {R : α → Path × Content → Prop} {g : α → Path} {as : List α}
    {files : List (Path × Content)} (h : List.Forall₂ R as files) (hR : ∀ a f, R a f → f.1 = g a) :
    files.map Prod.fst = as.map g := by
  induction h with
  | nil => rfl
  | cons hfile _ ih => rw [List.map_cons, List.map_cons, hR _ _ hfile, ih]

/-- All files of a run: the planned ones, the compiled forms and the bundle. -/
def outputFiles (config : BuildConfig) (printed compiled : List (Path × Content))
    (bundle : ZipFile) : List (Path × Content) :=
  printed ++ compiled ++ [(config.bundlePath, .archive bundle)]

/-- What has been saved by a run that succeeds: the planned files and the compiled forms, and then
the archive, which has been made while all but the bundle was on the disk. -/
structure Written (zip : Archive → Bytes) (d d' : Disk) (config : BuildConfig) (p : Preparation)
    (printed compiled : List (Path × Content)) (archive : Archive) : Prop where
  isPrinted : List.Forall₂ (IsPrinted p.context config.outDir) p.artifacts printed
  isCompiled : List.Forall₂ (IsCompiled d') p.sources compiled
  bundle : ∃ made, Saved d (printed ++ compiled) made
    ∧ Bundle.archive? made (packagedForms p.sources) p.sources = .ok archive
    ∧ Saved made [(config.bundlePath, .archive (archive.pack zip))] d'

theorem write_ok (hapart : OutputsApart d config p)
    (h : (write zip config p).perform d = (.ok stats, d')) :
    ∃ printed compiled archive, Written zip d d' config p printed compiled archive
      ∧ stats.total = tally (outputFiles config printed compiled (archive.pack zip)) := by
  rw [write_eq] at h
  obtain ⟨s, d₁, hprint, h⟩ := perform_bind_eq_ok_iff.mp h
  obtain ⟨s', d₂, hcompile, hbundle⟩ := perform_bind_eq_ok_iff.mp h
  obtain ⟨printed, hsaved₁, hprinted, htotal₁⟩ := writeArtifacts_ok hprint
  have hdest₁ := hsaved₁.writes.destination
  have hcompiled : ∀ source ∈ p.sources,
      d₁.destination source.compiled ∈ (outputPaths config p).map d.destination := by
    intro source hsource
    rw [hdest₁]
    exact List.mem_map_of_mem (mem_outputPaths_iff.mpr (.inr (.inl ⟨source, hsource, rfl⟩)))
  obtain ⟨compiled, hsaved₂, hforms, htotal₂⟩ :=
    compileSources_ok hcompiled (by rw [hdest₁]; exact hapart.sources) hcompile
  have hsaved := hsaved₁.append hsaved₂
  obtain ⟨archive, harchive, hsaved₃, htotal₃⟩ := writeBundle_ok hbundle
  refine ⟨printed, compiled, archive, ⟨hprinted, ?_, d₂, hsaved, harchive, hsaved₃⟩, ?_⟩
  · -- The bundle is not written to a source either.
    refine forall₂_imp_of_mem hforms ?_
    rintro source hsource f ⟨hpath, bytes, form, hread, hform⟩
    refine ⟨hpath, bytes, form, hsaved₃.writes.read hread fun hmem => ?_, hform⟩
    rw [hsaved.writes.destination, List.map_singleton, List.mem_singleton] at hmem
    refine hapart.sources source hsource ?_
    rw [hmem]
    exact List.mem_map_of_mem (mem_outputPaths_iff.mpr (.inr (.inr rfl)))
  · have hzero : p.statistics.total.add (tally printed) = tally printed := by
      simp [Tally.add, Preparation.statistics, Statistics.total, Statistics.zero, Tally.zero,
        NameMap.values, NameMap.empty]
    rw [htotal₃, htotal₂, htotal₁, hzero, tally_append, tally_append, outputFiles]

namespace Written

variable {printed compiled : List (Path × Content)} {archive : Archive}
  (h : Written zip d d' config p printed compiled archive)

include h

theorem saved : Saved d (outputFiles config printed compiled (archive.pack zip)) d' := by
  obtain ⟨made, hsaved, -, hlast⟩ := h.bundle
  exact hsaved.append hlast

/-- The files are at the outputs of the run. -/
theorem map_path :
    (outputFiles config printed compiled (archive.pack zip)).map Prod.fst
      = outputPaths config p := by
  rw [outputFiles, List.map_append, List.map_append,
    map_path_of_forall₂ h.isPrinted fun _ _ h => h.1,
    map_path_of_forall₂ h.isCompiled fun _ _ h => h.1]
  rfl

theorem length :
    (outputFiles config printed compiled (archive.pack zip)).length
      = p.artifacts.length + p.sources.length + 1 := by
  rw [outputFiles, List.length_append, List.length_append, ← h.isPrinted.length_eq,
    ← h.isCompiled.length_eq, List.length_singleton]

theorem map_destination :
    (outputFiles config printed compiled (archive.pack zip)).map (fun f => d.destination f.1)
      = (outputPaths config p).map d.destination := by
  rw [← h.map_path, List.map_map]
  rfl

variable (hapart : OutputsApart d config p)

include hapart

/-- All files are there in the end. -/
theorem find :
    ∀ f ∈ outputFiles config printed compiled (archive.pack zip),
      d'.find f.1 = .ok (.file f.2) :=
  h.saved.find (h.map_destination ▸ hapart.differ)

theorem read :
    ∀ f ∈ outputFiles config printed compiled (archive.pack zip),
      d'.read f.1 = .ok f.2.bytes :=
  fun f hf => read_eq_ok_iff.mpr ⟨f.2, h.find hapart f hf, rfl⟩

/-- What is read from a source in the end was there before. -/
theorem keeps {source : ScriptSource} (hsource : source ∈ p.sources) {bytes : Bytes}
    (hread : d'.read source.srcpath = .ok bytes) : Keeps d d' source bytes := by
  refine ⟨h.saved.writes.node?_of_read hread ?_, hread⟩
  rw [h.map_destination]
  exact hapart.sources source hsource

/-- The members hold the texts of the packaged sources: the forms that have been compiled are still
there when they are bundled. -/
theorem exists_members :
    ∃ members : List Member, members.Perm archive.members ∧
      List.Forall₂ (IsBundled d d') (p.sources.filter ScriptSource.isPackaged) members := by
  obtain ⟨made, hsaved, harchive, -⟩ := h.bundle
  have hdiffer : ((printed ++ compiled).map fun f => d.destination f.1).Nodup := by
    have hall := h.map_destination ▸ hapart.differ
    rw [outputFiles, List.map_append] at hall
    exact hall.of_append_left
  obtain ⟨members, hperm, hmembers⟩ := packaged_members harchive
  refine ⟨members, hperm, forall₂_imp_of_mem hmembers ?_⟩
  rintro source hpackaged m ⟨hname, hdata⟩
  have hsource := (List.mem_filter.mp hpackaged).1
  obtain ⟨f, hf, hpath, bytes, form, hbytes, hform, hcontent⟩ :=
    exists_of_forall₂ h.isCompiled hsource
  have hfound := hsaved.find hdiffer f (List.mem_append_right _ hf)
  rw [hpath, hcontent] at hfound
  have hsame : m.data = form :=
    Except.ok.inj (hdata.symm.trans (read_eq_ok_iff.mpr ⟨_, hfound, rfl⟩))
  obtain ⟨text, rfl, hpayload⟩ := CompiledForm.payload?_of_ofSource? hform
  obtain ⟨pieces, -, hfree, htext, hlines⟩ := Text.exists_pieces text.toList
  rw [CompiledForm.payloadOfText, hlines] at hpayload
  exact ⟨hname, text, pieces, h.keeps hapart hsource hbytes, hfree, htext, hsame ▸ hpayload⟩

end Written

/-- **What a run leaves behind when it succeeds.** -/
theorem generated_of_write (hapart : OutputsApart d config p)
    (h : (write zip config p).perform d = (.ok stats, d')) :
    Generated zip d d' config p stats := by
  obtain ⟨printed, compiled, archive, hwritten, htotal⟩ := write_ok hapart h
  have hread := hwritten.read hapart
  refine ⟨fun a ha => ?_, fun source hsource => ?_, ?_, ?_⟩
  · obtain ⟨f, hf, hpath, text, hrender, hcontent⟩ := exists_of_forall₂ hwritten.isPrinted ha
    have hprint := hread f (by simp [outputFiles, hf])
    rw [hpath, hcontent] at hprint
    exact ⟨text, hrender, hprint⟩
  · obtain ⟨f, hf, hpath, bytes, form, hbytes, hform, hcontent⟩ :=
      exists_of_forall₂ hwritten.isCompiled hsource
    have hcompile := hread f (by simp [outputFiles, hf])
    rw [hpath, hcontent] at hcompile
    exact ⟨bytes, form, hwritten.keeps hapart hsource hbytes, hform, hcompile⟩
  · have hbundle := hwritten.find hapart (config.bundlePath, .archive (archive.pack zip))
    exact ⟨archive, hbundle (by simp [outputFiles]), hwritten.exists_members hapart⟩
  · refine ⟨(outputFiles config printed compiled (archive.pack zip)).map fun f => f.2.size,
      ?_, ?_⟩
    · rw [← hwritten.map_path, List.forall₂_map_left_iff, List.forall₂_map_right_iff,
        List.forall₂_same]
      exact fun f hf => ⟨f.2.bytes, hread f hf, rfl⟩
    · rw [htotal, tally, hwritten.length]

/-- If one source is packaged, the bundle has one member. -/
theorem Generated.exists_member (h : Generated zip d d' config p stats) {source : ScriptSource}
    (hpackaged : p.sources.filter ScriptSource.isPackaged = [source]) :
    ∃ m, d'.find config.bundlePath = .ok (.file (.archive ⟨⟨[m]⟩, zip ⟨[m]⟩⟩))
      ∧ IsBundled d d' source m := by
  obtain ⟨archive, hfind, members, hperm, hmembers⟩ := h.bundle
  rw [hpackaged] at hmembers
  obtain ⟨m, rest, hm, hrest, rfl⟩ := List.forall₂_cons_left_iff.mp hmembers
  obtain rfl := List.forall₂_nil_left_iff.mp hrest
  have harchive : archive = ⟨[m]⟩ := congrArg Archive.mk (List.singleton_perm.mp hperm).symm
  exact ⟨m, harchive ▸ hfind, hm⟩

theorem generate_of_prepare? (h : prepare? versionControl d config = .ok p) :
    config.generate versionControl d zip = (write zip config p).perform d := by
  rw [BuildConfig.generate, h]
  rfl

/-- **Whether a run succeeds is not up to the writer of archives.** -/
theorem exists_generate (zip' : Archive → Bytes)
    (h : config.generate versionControl d zip = (.ok stats, d')) :
    ∃ stats' made, config.generate versionControl d zip' = (.ok stats', made) := by
  cases hprepare : prepare? versionControl d config with
  | error failure =>
    rw [BuildConfig.generate, hprepare] at h
    cases h
  | ok p =>
    rw [generate_of_prepare? hprepare] at h ⊢
    exact exists_write zip' h

/-- **What a run leaves behind, and what it leaves alone.** Let the outputs of a run lead to
different destinations, and no source be at one of them. Archives may be written in any way. If the
run succeeds, every planned file holds its text for the registry of the sources, every compiled form
is the form of its source, the bundle has one member for each packaged source, and all these files
and their bytes are counted. Whether it succeeds or not, there is no other file that is made,
replaced or removed. -/
theorem outputs_exact (versionControl : Provenance.Lookup) (zip : Archive → Bytes) (d : Disk)
    (config : BuildConfig)
    (hapart : ∀ p, prepare? versionControl d config = .ok p → OutputsApart d config p) :
    (∀ stats d', config.generate versionControl d zip = (.ok stats, d') →
      ∃ p, prepare? versionControl d config = .ok p ∧ Prepared d config p
        ∧ Generated zip d d' config p stats) ∧
    (∀ loc, (∀ p, prepare? versionControl d config = .ok p →
        loc ∉ (outputPaths config p).map d.destination) →
      ∀ c, (config.generate versionControl d zip).2.node? loc = some (.file c)
        ↔ d.node? loc = some (.file c)) := by
  cases hprepare : prepare? versionControl d config with
  | error failure =>
    have hgenerate : config.generate versionControl d zip = (.error failure, d) := by
      rw [BuildConfig.generate, hprepare]
    rw [hgenerate]
    constructor
    · intro stats d' h
      cases h
    · intro loc _ c
      exact Iff.rfl
  | ok p =>
    rw [generate_of_prepare? hprepare]
    constructor
    · intro stats d' h
      exact ⟨p, rfl, prepared_of_prepare? hprepare, generated_of_write (hapart p hprepare) h⟩
    · intro loc hloc c
      exact (writes_write zip d config p).file loc (hloc p rfl) c

/-! ### A small run

It has a manifest for the root class and a packaged source, whose lines end with a carriage return
and a line feed. -/

def toolDisk : Disk :=
  ⟨["work"],
    [(["work", "runtime.toml"], .file (.plain (Text.utf8 "[[class]]\nname = \"SimObject\"\n"))),
      (["work", "tool.py"], .file (.plain (Text.utf8 "pass\r\n")))]⟩

def toolConfig : BuildConfig where
  root := ⟨"."⟩
  outDirField := ⟨"build"⟩
  objects := []
  bindingModules := []
  flags := none
  infoFiles := []
  envTable := []
  sources :=
    [⟨"runtime", ⟨"runtime.toml"⟩, none, none, false⟩, ⟨"tool", ⟨"tool.py"⟩, none, none, true⟩]
  bundle := ⟨"objects.zip"⟩
  provenance := none

/-- The packaged source. -/
def toolSource : ScriptSource :=
  ⟨"tool", ⟨"./tool.py"⟩, "tool.py", ⟨"./build/tool.pyc"⟩, true⟩

theorem eq_of_keeps_toolSource {text : String}
    (h : Keeps toolDisk d' toolSource (Text.utf8 text)) : text = "pass\r\n" := by
  obtain ⟨c, hc, hbytes⟩ := h.before
  have hkept : toolDisk.node? (toolDisk.destination toolSource.srcpath)
      = some (.file (.plain (Text.utf8 "pass\r\n"))) := by
    decide +kernel
  cases hkept.symm.trans hc
  exact (Text.utf8_inj.mp hbytes).symm

theorem tool_succeeds (zip : Archive → Bytes) :
    ∃ stats d', toolConfig.generate (fun _ => none) toolDisk zip = (.ok stats, d') := by
  have hok : (toolConfig.generate (fun _ => none) toolDisk).1.isOk = true := by decide +kernel
  generalize hrun : toolConfig.generate (fun _ => none) toolDisk = run at hok
  obtain ⟨result, d'⟩ := run
  obtain ⟨stats, rfl⟩ := exists_ok_of_isOk hok
  exact exists_generate zip hrun

/-- Whoever writes the archive, the run succeeds, and the bundle holds the source with one line
feed. -/
theorem tool_outputs :
    (∀ p, prepare? (fun _ => none) toolDisk toolConfig = .ok p →
      OutputsApart toolDisk toolConfig p) ∧
    ∀ zip, ∃ p stats d' m, toolConfig.generate (fun _ => none) toolDisk zip = (.ok stats, d')
      ∧ Generated zip toolDisk d' toolConfig p stats ∧ stats.total.files = 10
      ∧ d'.node? ["work", "tool.py"] = some (.file (.plain (Text.utf8 "pass\r\n")))
      ∧ d'.find toolConfig.bundlePath = .ok (.file (.archive ⟨⟨[m]⟩, zip ⟨[m]⟩⟩))
      ∧ m.name = "tool.py" ∧ CompiledForm.payload? m.data = some (Text.utf8 "pass\n") := by
  have hpaths : (prepare? (fun _ => none) toolDisk toolConfig).toOption.all (fun p =>
      ((outputPaths toolConfig p).map toolDisk.destination).Nodup ∧ (∀ source ∈ p.sources,
        toolDisk.destination source.srcpath ∉ (outputPaths toolConfig p).map toolDisk.destination)
      ∧ p.artifacts.length + p.sources.length + 1 = 10
      ∧ ["work", "tool.py"] ∉ (outputPaths toolConfig p).map toolDisk.destination) = true := by
    decide +kernel
  have hprepare : ∀ p, prepare? (fun _ => none) toolDisk toolConfig = .ok p →
      OutputsApart toolDisk toolConfig p ∧ p.artifacts.length + p.sources.length + 1 = 10
        ∧ ["work", "tool.py"] ∉ (outputPaths toolConfig p).map toolDisk.destination := by
    intro p hp
    rw [hp] at hpaths
    obtain ⟨hdiffer, hsources, hcount, htool⟩ := of_decide_eq_true hpaths
    exact ⟨⟨hdiffer, hsources⟩, hcount, htool⟩
  have hapart := fun p hp => (hprepare p hp).1
  have hkept : toolDisk.node? ["work", "tool.py"]
      = some (.file (.plain (Text.utf8 "pass\r\n"))) := by
    decide +kernel
  refine ⟨hapart, fun zip => ?_⟩
  obtain ⟨stats, d', hrun⟩ := tool_succeeds zip
  obtain ⟨houtputs, hframe⟩ := outputs_exact (fun _ => none) zip toolDisk toolConfig hapart
  rw [hrun] at houtputs hframe ⊢
  obtain ⟨p, hp, hprepared, hgenerated⟩ := houtputs stats d' rfl
  have hpackaged : p.sources.filter ScriptSource.isPackaged = [toolSource] := by
    rw [hprepared.sources]
    decide +kernel
  obtain ⟨m, hfind, hname, text, pieces, hkeeps, hfree, htext, hpayload⟩ :=
    hgenerated.exists_member hpackaged
  obtain ⟨sizes, -, htotal⟩ := hgenerated.counted
  refine ⟨p, stats, d', m, rfl, hgenerated, ?_, ?_, hfind, hname, ?_⟩
  · rw [htotal]
    exact (hprepare p hp).2.1
  · exact (hframe _ (fun p hp => (hprepare p hp).2.2) _).mpr hkept
  · rw [hpayload, ← Text.unixLines_intercalate hfree, ← htext, eq_of_keeps_toolSource hkeeps]
    decide +kernel

end Generation

end SimMetadata
