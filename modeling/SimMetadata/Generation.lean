import SimMetadata.Artifact
import SimMetadata.BuildConfig
import SimMetadata.Bundle
import SimMetadata.CompiledForm
import SimMetadata.Registry.Assembly
import SimMetadata.Statistics

/-!
# A whole run

A run first gathers all that it needs: the environment, the registry, the trace flags, the
provenance and the embedded files. Up to then nothing is written. Then it writes the generated
files in the order of the plan, compiles every scripting source, and bundles the packaged ones.

## Main definitions

* `Artifact.plan`: the generated files of a run, in the order in which they are written.
* `Generation.prepare?`: all that a run needs before it writes.
* `BuildConfig.generate`: the run, and the disk that it leaves behind.
-/

namespace SimMetadata

/-! ### Embedded files -/

/-- The variable that holds an embedded file: the file name with every other character than an
ASCII letter or digit turned into an underscore, and one more underscore in front of a digit. -/
def infoVariable (file : Path) : String :=
  let name := (file.fileName?.getD "").toList.map fun c => if c.isAlphanum then c else '_'
  match name with
  | [] => "_"
  | c :: _ => if c.isDigit then String.ofList ('_' :: name) else String.ofList name

/-- Reads the files that a configuration embeds. -/
def readInfoFiles? (d : Disk) (config : BuildConfig) :
    List Path → Except Failure (List EmbeddedFile)
  | [] => .ok []
  | file :: files =>
    match d.readText (config.resolve file) with
    | .error fault => .error (.io (config.resolve file) fault)
    | .ok contents => do
      return ⟨infoVariable file, contents⟩ :: (← readInfoFiles? d config files)

/-! ### The plan -/

/-- Whether a source is a module of the package of classes. -/
def ScriptSource.isObjectModule (s : ScriptSource) : Bool :=
  (objectsModule ++ ".").toList.isPrefixOf s.modpath.toList

/-- The modules of the package of classes among some sources, by name. -/
def objectModules (sources : List ScriptSource) : List String :=
  ((sources.filter (·.isObjectModule)).map ScriptSource.modpath).mergeSort fun a b => a ≤ b

/-- The generated files of a run, in the order in which they are written. -/
def Artifact.plan (r : Registry) (sources : List ScriptSource) (bindingModules : List String)
    (withFlags : Bool) (info : List EmbeddedFile) : List Artifact :=
  r.classes.keys.map .interface
    ++ r.paramTypes.values.map .binding
    ++ r.enums.keys.flatMap (fun name => [.enumSource name, .enumHeader name])
    ++ [.aggregate r.classes.keys, .bindingInit bindingModules]
    ++ (if withFlags then [.flagScript, .flagSource, .flagHeader] else [])
    ++ [.provenance, .buildEnv, .info info, .objectsInit (objectModules sources)]

/-! ### The run -/

/-- All that a run needs before it writes. -/
structure Preparation where
  context : RenderContext
  sources : List ScriptSource
  artifacts : List Artifact
  deriving Inhabited

/-- The counts of a run that has not written anything. -/
def Preparation.statistics (p : Preparation) : Statistics :=
  { Statistics.zero with
    classes := p.context.registry.classes.size
    enums := p.context.registry.enums.size
    paramTypes := p.context.registry.paramTypes.size }

/-- A step of a run that writes: it leaves a disk behind, and gives an answer or fails. -/
abbrev Generation := ExceptT Failure (StateM Disk)

namespace Generation

/-- All that a run needs before it writes. -/
def prepare? (versionControl : Provenance.Lookup) (d : Disk) (config : BuildConfig) :
    Except Failure Preparation := do
  let env ← config.env?
  let sources := config.scriptSources
  let registry ← Registry.ofSources? d sources config.objects env
  let flags ←
    match config.flagsPath? with
    | some p => TraceFlag.load? d p
    | none => .ok []
  let provenance := Provenance.probe versionControl d config.provenanceDir
  let info ← readInfoFiles? d config config.infoFiles
  return {
    context := { registry, env, flags, provenance }
    sources
    artifacts := Artifact.plan registry sources config.bindingModules config.flags.isSome info }

/-- Writes some generated files below a directory and counts them. -/
def writeArtifacts (context : RenderContext) (outDir : Path) :
    List Artifact → Statistics → Generation Statistics
  | [], s => pure s
  | a :: rest, s => do
    let text ← liftExcept (a.render? context)
    writeText (outDir.join a.target) text
    writeArtifacts context outDir rest (s.record a.kind (Text.utf8 text).length)
where
  /-- The answer of a step that writes nothing. -/
  liftExcept {α : Type} (x : Except Failure α) : Generation α := fun d => (x, d)
  /-- Writes a text to a file. -/
  writeText (target : Path) (text : String) : Generation Unit :=
    fun d => d.save target (.plain (Text.utf8 text))

/-- Compiles some sources and counts the forms. -/
def compileSources : List ScriptSource → Statistics → Generation Statistics
  | [], s => pure s
  | source :: rest, s => do
    let length ← fun d => CompiledForm.compileFile d source.srcpath source.compiled
    compileSources rest (s.record "compiled" length)

/-- The compiled forms that go into the bundle. -/
def packagedForms (sources : List ScriptSource) : List Path :=
  (sources.filter ScriptSource.isPackaged).map ScriptSource.compiled

/-- Bundles the packaged sources and counts the archive. -/
def writeBundle (zip : Archive → Bytes) (target : Path) (sources : List ScriptSource)
    (s : Statistics) : Generation Statistics := do
  let length ← fun d => Bundle.save d target (packagedForms sources) sources zip
  return s.record "bundle" length

/-- All that a run writes. -/
def write (zip : Archive → Bytes) (config : BuildConfig) (p : Preparation) :
    Generation Statistics := do
  let s ← writeArtifacts p.context config.outDir p.artifacts p.statistics
  let s ← compileSources p.sources s
  writeBundle zip config.bundlePath p.sources s

end Generation

/-- A whole run on a disk. -/
def BuildConfig.generate (config : BuildConfig) (versionControl : Provenance.Lookup) (d : Disk)
    (zip : Archive → Bytes := Archive.toBytes) : Except Failure Statistics × Disk :=
  match Generation.prepare? versionControl d config with
  | .error failure => (.error failure, d)
  | .ok p => (ExceptT.run (Generation.write zip config p)).run d

end SimMetadata
