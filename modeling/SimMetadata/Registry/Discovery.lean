import SimMetadata.ConfigClass
import SimMetadata.Loader
import SimMetadata.ParamType

/-!
# Discovery

Discovery imports the base module and the module of every requested class, and from each manifest
all that it leads to: first the modules that it names, then the modules of the parents of its
classes, and last the modules of the classes that its parameters refer to. What the manifests
declare is collected on the way and resolved afterwards, when everything is known.

## Main definitions

* `Declared`: a class that has been declared but not resolved.
* `Walk`: how far the walk has come.
* `Discovery.importModule`: imports one module and all that it leads to.
* `Discovery.explore`: the whole walk; its answer is the build environment that the loader exposes.

## Implementation notes

`Walk.unimported` lists the names that can resolve and have not been imported. A module leaves it
before its manifest is registered, so imports may go in circles, and every nested import finds the
list shorter. Its length is therefore a bound for the depth of the walk. With the bound used up
there is nothing left to import, and a name that resolves has been imported already.

A step of the walk keeps what it has done when it fails, because the loader has to take back
what it installed in any case.
-/

namespace SimMetadata

/-- The name of the module that declares the root class and is imported before all others. -/
def baseModule : String := "runtime"

/-- A class as its manifest declares it. -/
structure Declared where
  decl : ClassDecl
  /-- The module whose manifest declares the class. -/
  moduleName : String
  deriving DecidableEq, Inhabited, Repr

/-- The class that a declared class derives from: the root, unless another one is named. The root
derives from none, whatever it names. -/
def ClassDecl.effectiveParent? (c : ClassDecl) : Option String :=
  if c.name = rootClass then none else some (c.parent.getD rootClass)

/-- How far the walk has come. -/
structure Walk where
  loader : Loader
  /-- The names that can resolve and have not been imported. -/
  unimported : List String
  classes : NameMap Declared
  enums : NameMap Enumeration
  deriving DecidableEq, Inhabited

/-- The walk before the first step. -/
def Walk.start (l : Loader) : Walk := ⟨l, l.resolvable.keys, NameMap.empty, NameMap.empty⟩

/-- A step of the walk: it moves on, and gives an answer or fails. -/
abbrev Discovery := ExceptT Failure (StateM Walk)

namespace Discovery

/-- Loads a module. -/
def load (d : Disk) (name : String) : Discovery (Option Module) := fun w =>
  let (answer, l) := w.loader.load d name
  (answer, { w with loader := l })

/-- Whether a class has been declared. -/
def knows (className : String) : Discovery Bool := do return (← get).classes.contains className

/-- Imports the modules that a manifest names; each has to resolve. -/
def importNamed (importModule : String → Discovery Bool) (importer : String) :
    List String → Discovery Unit
  | [] => pure ()
  | name :: names => do
    if ← importModule name then importNamed importModule importer names
    else throw (.unresolvedImport name importer)

/-- Declares the enumerations of a manifest. -/
def declareEnums : List EnumDecl → Discovery Unit
  | [] => pure ()
  | e :: es => do
    if (← get).enums.contains e.name then throw (.duplicateEnum e.name)
    let enumeration ← liftExcept e.toEnumeration?
    modify fun w => { w with enums := w.enums.insert e.name enumeration }
    declareEnums es
where
  /-- The answer of a step that does not move. -/
  liftExcept {α : Type} (x : Except Failure α) : Discovery α := fun w => (x, w)

/-- Declares the classes of a manifest. -/
def declareClasses (moduleName : String) : List ClassDecl → Discovery Unit
  | [] => pure ()
  | c :: cs => do
    match (← get).classes.get? c.name with
    | some first => throw (.duplicateClass c.name first.moduleName moduleName)
    | none =>
      modify fun w => { w with classes := w.classes.insert c.name ⟨c, moduleName⟩ }
      declareClasses moduleName cs

/-- Imports the module of a class that has not been declared yet. -/
def importClass (importModule : String → Discovery Bool) (className : String) :
    Discovery Unit := do
  if ← knows className then pure ()
  else discard (importModule (objectModule className))

/-- Sees to it that the parents of some classes are declared. -/
def importParents (importModule : String → Discovery Bool) : List ClassDecl → Discovery Unit
  | [] => pure ()
  | c :: cs => do
    match c.effectiveParent? with
    | none => importParents importModule cs
    | some parent =>
      importClass importModule parent
      if ← knows parent then importParents importModule cs
      else throw (.unknownParent c.name parent)

/-- Whether a parameter counts for the walk: its guard is not a setting that disables it. A guard
on a key that the environment has not is reported when the class is resolved. -/
def isEnabled (env : BuildEnv) (p : ParamDecl) : Bool :=
  match p.guardKey >>= env.get? with
  | some value => value.isTruthy
  | none => true

/-- The classes that the parameters of some classes refer to, as far as the enumerations are
known. A name may turn out to be an enumeration later. -/
def referredClasses (env : BuildEnv) (isEnum : String → Bool) (classes : List ClassDecl) :
    List String :=
  (classes.flatMap ClassDecl.params).filterMap fun p =>
    if isEnabled env p then ParamType.ofText? isEnum p.type >>= ParamType.objectName? else none

/-- Imports the modules of some classes. -/
def importClasses (importModule : String → Discovery Bool) : List String → Discovery Unit
  | [] => pure ()
  | name :: names => do
    importClass importModule name
    importClasses importModule names

/-- Registers a manifest: imports what it names, declares what it declares, and imports what its
declarations refer to. -/
def register (env : BuildEnv) (importModule : String → Discovery Bool) (moduleName : String)
    (m : Manifest) : Discovery Unit := do
  importNamed importModule moduleName m.imports
  declareEnums m.enums
  declareClasses moduleName m.classes
  importParents importModule m.classes
  let enums := (← get).enums
  importClasses importModule (referredClasses env enums.contains m.classes)

/-- Imports a module, unless it has been imported, and says whether it resolves. The number bounds
how many modules are still to be imported. -/
def importModule (d : Disk) (env : BuildEnv) : Nat → String → Discovery Bool
  | 0, name => do return (← load d name).isSome
  | bound + 1, name => do
    match ← load d name with
    | none => return false
    | some found =>
      if name ∈ (← get).unimported then
        modify fun w => { w with unimported := w.unimported.filter (· ≠ name) }
        match found with
        | .manifest _ m => register env (importModule d env bound) name m
        | _ => pure ()
      return true

/-- The environment that the loader exposes. -/
def exposedEnv (d : Disk) : Discovery BuildEnv := do
  match ← load d envModule with
  | some (.env settings) => return settings
  | _ => throw (.malformedEnv (.notExposed envModule))

/-- Imports the modules of the requested classes, each of which has to be declared then. -/
def importRequested (importModule : String → Discovery Bool) : List String → Discovery Unit
  | [] => pure ()
  | name :: names => do
    importClass importModule name
    if ← knows name then importRequested importModule names
    else throw (.unresolvedClass name)

/-- The whole walk: the environment, the base module, and the requested classes by name. -/
def explore (d : Disk) (requested : List String) : Discovery BuildEnv := do
  let env ← exposedEnv d
  let visit := importModule d env (← get).unimported.length
  let resolved ← visit baseModule
  if resolved && (← knows rootClass) then
    importRequested visit (NameSet.ofNames requested).keys
    return env
  else throw (.missingRoot baseModule rootClass)

end Discovery

end SimMetadata
