import SimMetadata.BuildEnv
import SimMetadata.Manifest

/-!
# Modules

A module is what a module name stands for. The host keeps a table of modules; discovery adds to it
for a while and takes away again what it added.
-/

namespace SimMetadata

/-- What a module name stands for. -/
inductive Module where
  /-- The module that exposes the build environment. -/
  | env (settings : BuildEnv)
  /-- A package without content of its own. -/
  | package
  /-- A manifest and the file that it was read from. -/
  | manifest (path : Path) (m : Manifest)
  /-- A module that the host itself provides. -/
  | native
  deriving DecidableEq, Inhabited

/-- The modules that the host resolves, by name. -/
abbrev ModuleTable := NameMap Module

end SimMetadata
