import SimMetadata.Module

/-!
# Loading modules

The loader resolves module names and installs what it resolves into the module table of the host.
It never replaces an entry of the host, it keeps account of what it installed, and unloading takes
exactly that away again.

Two names are built in: `build_env` stands for the build environment, `objects` for the package
that holds one module per class. Names in the namespace `internal` are never resolved. Any other
name is resolved if a source is mapped to it whose file exists.

## Main definitions

* `Loader`: the host table, the mapping, the environment and the names installed so far.
* `Loader.resolve?`: what a name resolves to when the host does not have it.
* `Loader.load`: resolves a name, after the packages around it.
* `Loader.unload`: removes what was installed.

## Implementation notes

Loading `a.b.c` loads `a.b` before, and that loads `a` before. `packages` lists these names, the
longest first, and `Loader.loadChain` recurses on the list. A package that does not resolve ends
the chain: the packages around it are not looked at.
-/

namespace SimMetadata

/-- The name of the module that exposes the build environment. -/
def envModule : String := "build_env"

/-- The name of the package that holds one module per class. -/
def objectsModule : String := "objects"

/-- The namespace that is never resolved. -/
def reservedNamespace : String := "internal"

/-- The name of the module that declares a class. -/
def objectModule (className : String) : String := objectsModule ++ "." ++ className

/-- Whether a module name is in the reserved namespace. -/
def isReserved (name : String) : Bool :=
  name = reservedNamespace || (reservedNamespace ++ ".").toList.isPrefixOf name.toList

/-- The beginnings of a text before each of its dots, the shortest first. -/
def beforeDots : List Char → List (List Char)
  | [] => []
  | c :: cs => (if c = '.' then [[]] else []) ++ (beforeDots cs).map (c :: ·)

/-- The packages around a module: its name cut before each dot, the longest first. -/
def packages (name : String) : List String :=
  (beforeDots name.toList).reverse.map String.ofList

/-- What a name can resolve to. -/
inductive Resolution where
  | env
  | package
  /-- The manifest in a file. -/
  | source (path : Path)
  deriving DecidableEq, Inhabited, Repr

/-- A loader at work on the module table of a host. -/
structure Loader where
  /-- The table, with what has been installed. -/
  host : ModuleTable
  /-- The files that module names are mapped to. -/
  sources : NameMap Path
  env : BuildEnv
  /-- The names that this loader has installed. -/
  installed : NameSet
  deriving DecidableEq, Inhabited

namespace Loader

/-- A loader that has not installed anything yet. A later mapping of a name replaces an earlier
one. -/
def install (host : ModuleTable) (mapping : List (String × Path)) (env : BuildEnv) : Loader :=
  ⟨host, NameMap.ofList mapping, env, NameMap.empty⟩

/-- What a name resolves to when the host does not have it. -/
def resolve? (l : Loader) (d : Disk) (name : String) : Option Resolution :=
  if isReserved name then none
  else if name = envModule then some .env
  else if name = objectsModule then some .package
  else match l.sources.get? name with
    | some path => if d.present path then some (.source path) else none
    | none => none

/-- The module that a name resolves to. -/
def moduleOf (l : Loader) (d : Disk) : Resolution → Except Failure Module
  | .env => .ok (.env l.env)
  | .package => .ok .package
  | .source path => do return .manifest path (← Manifest.load? d path)

/-- The loader after putting a module into the table of the host. -/
def record (l : Loader) (name : String) (m : Module) : Loader :=
  { l with host := l.host.insert name m, installed := l.installed.add name }

/-- Loads the first of some names, each of which has the rest as its packages. -/
def loadChain (d : Disk) : List String → Loader → Except Failure (Option Module) × Loader
  | [], l => (.ok none, l)
  | name :: around, l =>
    match l.host.get? name with
    | some m => (.ok (some m), l)
    | none =>
      match l.resolve? d name with
      | none => (.ok none, l)
      | some resolution =>
        match loadChain d around l with
        | (.error f, l) => (.error f, l)
        | (.ok _, l) =>
          match l.moduleOf d resolution with
          | .error f => (.error f, l)
          | .ok m => (.ok (some m), l.record name m)

/-- The module that a name stands for, installed if the host did not have it. -/
def load (l : Loader) (d : Disk) (name : String) : Except Failure (Option Module) × Loader :=
  loadChain d (name :: packages name) l

/-- The loader after removing all that it installed. -/
def unload (l : Loader) : Loader :=
  { l with host := l.installed.keys.foldl NameMap.erase l.host, installed := NameMap.empty }

/-- The names that the loader could ever resolve. -/
def resolvable (l : Loader) : NameSet :=
  NameSet.ofNames (envModule :: objectsModule :: l.host.keys ++ l.sources.keys)

/-! ### Instances -/

example : packages "a.b.c" = ["a.b", "a"] := by decide
example : packages "a..b" = ["a.", "a"] ∧ packages ".x" = [""] := by decide
example : isReserved "internal" ∧ isReserved "internal.core" ∧ ¬ isReserved "internals" := by
  decide

end Loader

end SimMetadata
