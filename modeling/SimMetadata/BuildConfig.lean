import SimMetadata.BuildEnv
import SimMetadata.Disk
import SimMetadata.ScriptSource
import SimMetadata.Toml.Document
import SimMetadata.Toml.Fields

/-!
# Build configurations

A build configuration is a TOML file that lists the requested classes, the scripting sources, the
build environment and the auxiliary inputs. Its relative paths start from its root, and a relative
root starts from the directory that holds the file.

## Main definitions

* `BuildConfig`, `SourceEntry`: what is written in the file.
* `BuildConfig.ofToml?`: the configuration of a TOML text.
* `BuildConfig.load?`: the configuration of a file.
* `BuildConfig.outDir` and the like: the paths that are meant.
* `BuildConfig.scriptSources`: the scripting sources with all that can be derived.
-/

namespace SimMetadata

open Toml

/-- A scripting source as a configuration lists it. -/
structure SourceEntry where
  modpath : String
  srcpath : Path
  arcname : Option String
  compiled : Option Path
  isPackaged : Bool
  deriving DecidableEq, Inhabited, Repr

/-- A build configuration as it is written. -/
structure BuildConfig where
  root : Path
  /-- The directory that is written to. -/
  outDirField : Path
  /-- The requested classes. -/
  objects : List String
  /-- The binding modules that are started together. -/
  bindingModules : List String
  /-- The file that declares the trace flags. Without it there are no tables of flags. -/
  flags : Option Path
  /-- The files to be embedded in the info module. -/
  infoFiles : List Path
  /-- The entries of the build environment. -/
  envTable : List (String × Value)
  sources : List SourceEntry
  /-- The archive of compiled forms, seen from the output directory. -/
  bundle : Path
  /-- The tree whose provenance is stamped, if it is not the root. -/
  provenance : Option Path
  deriving Inhabited

/-! ### Reading -/

/-- The path that a value holds. -/
def pathOf? (v : Value) : Option Path := v.string?.map Path.mk

namespace SourceEntry

/-- The fields of an entry, in order. -/
def fieldNames : List String := ["modpath", "srcpath", "arcname", "compiled", "package"]

/-- The entry that a value describes. -/
def ofValue? (v : Value) : Option SourceEntry := do
  let fs ← fields? true fieldNames v
  return {
    modpath := ← fs.required? "modpath" Value.string?
    srcpath := ← fs.required? "srcpath" pathOf?
    arcname := ← fs.optional? "arcname" Value.string?
    compiled := ← fs.optional? "compiled" pathOf?
    isPackaged := ← fs.default? "package" Value.boolean? true }

end SourceEntry

namespace BuildConfig

/-- The keys of a configuration. -/
def fieldNames : List String :=
  ["root", "out_dir", "objects", "swig_modules", "flags", "info_files", "env", "source", "bundle",
    "provenance"]

/-- The entries of the build environment that a value describes. -/
def envTableOf? (v : Value) : Option (List (String × Value)) := do
  (← v.entries?).mapM fun e => do return (e.1, ← e.2.settle?)

/-- The configuration that the entries of a document describe. -/
def ofEntries? (entries : List (String × Value)) : Option BuildConfig := do
  let fs ← fieldsOfEntries? true fieldNames entries
  return {
    root := ← fs.default? "root" pathOf? ⟨"."⟩
    outDirField := ← fs.default? "out_dir" pathOf? ⟨"build"⟩
    objects := ← fs.default? "objects" (Value.list? Value.string?) []
    bindingModules := ← fs.default? "swig_modules" (Value.list? Value.string?) ["params"]
    flags := ← fs.optional? "flags" pathOf?
    infoFiles := ← fs.default? "info_files" (Value.list? pathOf?) []
    envTable := ← fs.default? "env" envTableOf? []
    sources := ← fs.default? "source" (Value.list? SourceEntry.ofValue?) []
    bundle := ← fs.default? "bundle" pathOf? ⟨"objects.zip"⟩
    provenance := ← fs.optional? "provenance" pathOf? }

/-- The configuration of a TOML text; a failure names the path. -/
def ofToml? (p : Path) (text : String) : Except Failure BuildConfig :=
  match Document.ofText? text >>= ofEntries? with
  | none => .error (.config p)
  | some c => .ok c

/-- The configuration of the file at a path, with a root that starts where the file is. -/
def anchored (c : BuildConfig) (p : Path) : BuildConfig :=
  { c with root := (p.parent?.getD ⟨""⟩).join c.root }

/-- The configuration of a file. -/
def load? (d : Disk) (p : Path) : Except Failure BuildConfig :=
  match d.readText p with
  | .error fault => .error (.io p fault)
  | .ok text => do return (← ofToml? p text).anchored p

/-! ### What is meant -/

/-- A path as it is seen from the root. -/
def resolve (c : BuildConfig) (p : Path) : Path := c.root.join p

/-- The directory that is written to. -/
def outDir (c : BuildConfig) : Path := c.resolve c.outDirField

/-- The build environment. -/
def env? (c : BuildConfig) : Except Failure BuildEnv := BuildEnv.ofTable? c.envTable

/-- A listed source with all paths resolved. Without an archive name it has the default one, and
without a path for its compiled form that goes to the output directory under the archive name and
a letter. -/
def resolveSource (c : BuildConfig) (s : SourceEntry) : ScriptSource :=
  let srcpath := c.resolve s.srcpath
  let arcname := s.arcname.getD (ScriptSource.defaultArcname s.modpath srcpath)
  { modpath := s.modpath
    srcpath
    arcname
    compiled :=
      match s.compiled with
      | some p => c.resolve p
      | none => c.outDir.join ⟨arcname ++ "c"⟩
    isPackaged := s.isPackaged }

/-- The scripting sources. -/
def scriptSources (c : BuildConfig) : List ScriptSource := c.sources.map c.resolveSource

/-- The file that declares the trace flags. -/
def flagsPath? (c : BuildConfig) : Option Path := c.flags.map c.resolve

/-- The archive of compiled forms. -/
def bundlePath (c : BuildConfig) : Path := c.outDir.join c.bundle

/-- The tree whose provenance is stamped. -/
def provenanceDir (c : BuildConfig) : Path :=
  match c.provenance with
  | some p => c.resolve p
  | none => c.root

end BuildConfig

end SimMetadata
