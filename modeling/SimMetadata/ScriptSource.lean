import SimMetadata.Path

/-!
# Scripting sources

A scripting source is known to the build by three names: the module path under which it is
imported, the path of its file, and the name of its compiled form in the bundle.

## Main definitions

* `ScriptSource`: the description; `ScriptSource.ofPaths` fills in what can be derived.
* `ScriptSource.defaultArcname`: the name in the bundle, unless another is given.
-/

namespace SimMetadata

/-- A source of the scripting layer. -/
structure ScriptSource where
  /-- The dotted name under which the module is imported. -/
  modpath : String
  /-- The file that holds the source. -/
  srcpath : Path
  /-- The name of the compiled form in the bundle. -/
  arcname : String
  /-- The file that the source is compiled to. -/
  compiled : Path
  /-- Whether the compiled form goes into the bundle. -/
  isPackaged : Bool
  deriving DecidableEq, Inhabited, Repr

namespace ScriptSource

/-- The module path with slashes for dots, and the extension of the file if it has one. -/
def defaultArcname (modpath : String) (srcpath : Path) : String :=
  let base := String.ofList (modpath.toList.map fun c => if c = '.' then '/' else c)
  match srcpath.extension? with
  | some extension => base ++ "." ++ extension
  | none => base

/-- The source with these paths, compiled beside its file and packaged under the default name. -/
def ofPaths (modpath : String) (srcpath : Path) : ScriptSource where
  modpath := modpath
  srcpath := srcpath
  arcname := defaultArcname modpath srcpath
  compiled := ⟨srcpath.text ++ "c"⟩
  isPackaged := true

end ScriptSource

end SimMetadata
