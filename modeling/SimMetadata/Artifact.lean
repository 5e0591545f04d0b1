import SimMetadata.Artifact.Aggregate
import SimMetadata.Artifact.FlagTables
import SimMetadata.Artifact.ScriptModules
import SimMetadata.Provenance

/-!
# Generated files

`Artifact` names every text file that is generated: where it goes, how it is counted, and what is
written into it. All but the look-ups in the registry and the check of the flags is a matter of
printing.

## Main definitions

* `Artifact`: a file to be generated.
* `Artifact.target`: its path below the output directory.
* `Artifact.render?`: its text.
-/

namespace SimMetadata

/-- What the files of one run are generated from. -/
structure RenderContext where
  registry : Registry
  env : BuildEnv
  flags : List TraceFlag
  provenance : Provenance
  deriving Inhabited

/-- A text file to be generated. -/
inductive Artifact where
  /-- The interface header of a class. -/
  | interface (className : String)
  /-- The declaration of a parameter type in a binding module. -/
  | binding (type : ParamType)
  /-- The table of an enumeration's names. -/
  | enumSource (name : String)
  /-- The header of an enumeration. -/
  | enumHeader (name : String)
  /-- The binding module over some classes. -/
  | aggregate (classNames : List String)
  /-- The source that starts some binding modules. -/
  | bindingInit (modules : List String)
  | flagScript
  | flagSource
  | flagHeader
  | provenance
  | buildEnv
  /-- The module of embedded files. -/
  | info (files : List EmbeddedFile)
  /-- The module that gathers the names of other modules. -/
  | objectsInit (modules : List String)
  deriving DecidableEq, Inhabited, Repr

namespace Artifact

/-- The path below the output directory. -/
def target : Artifact → Path
  | interface className => ⟨interfacePath className⟩
  | binding type => Path.join ⟨"params"⟩ ⟨type.tag ++ ".i"⟩
  | enumSource name => Path.join ⟨"enums"⟩ ⟨name ++ ".cc"⟩
  | enumHeader name => ⟨enumHeaderPath name⟩
  | aggregate _ => Path.join ⟨"params"⟩ ⟨Aggregate.moduleName ++ ".i"⟩
  | bindingInit _ => ⟨"swig/init.cc"⟩
  | flagScript => ⟨"base/traceflags.py"⟩
  | flagSource => ⟨"base/traceflags.cc"⟩
  | flagHeader => ⟨"base/traceflags.hh"⟩
  | provenance => ⟨"base/program_info.cc"⟩
  | buildEnv => ⟨"scripts/build_env.py"⟩
  | info _ => ⟨"scripts/info.py"⟩
  | objectsInit _ => ⟨"scripts/objects/__init__.py"⟩

/-- The kind under which the file is counted. -/
def kind : Artifact → String
  | interface _ => "interface"
  | binding _ => "binding"
  | enumSource _ | enumHeader _ => "enum"
  | aggregate _ => "aggregate"
  | bindingInit _ => "binding-init"
  | flagScript | flagSource | flagHeader => "flags"
  | provenance => "provenance"
  | buildEnv | info _ | objectsInit _ => "script"

/-- The declaration of a registered parameter type, by normalised name. -/
def bindingText (r : Registry) (typeName : String) : Except Failure String := do
  return Text.unlines (← r.paramType? typeName).bindingDecl

/-- The text of the file. -/
def render? (ctx : RenderContext) : Artifact → Except Failure String
  | interface className => do return (← Interface.ofClass? ctx.registry className).text
  | binding type => bindingText ctx.registry type.name
  | enumSource name => do return (EnumSource.ofEnumeration (← ctx.registry.enum? name)).text
  | enumHeader name => do return (EnumHeader.ofEnumeration (← ctx.registry.enum? name)).text
  | aggregate classNames => do return (← Aggregate.ofNames? ctx.registry classNames).text
  | bindingInit modules => .ok (bindingInitText modules)
  | flagScript => flagScriptText ctx.flags
  | flagSource => flagSourceText ctx.flags
  | flagHeader => flagHeaderText ctx.flags
  | provenance => .ok ctx.provenance.text
  | buildEnv => .ok (buildEnvText ctx.env)
  | info files => .ok (infoText files)
  | objectsInit modules => .ok (objectsInitText modules)

end Artifact

end SimMetadata
