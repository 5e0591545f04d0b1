import SimMetadata.Registry
import SimMetadata.Registry.Discovery
import SimMetadata.ScriptSource

/-!
# From declarations to the registry

When the walk is over, all names are known and the declarations can be resolved: guards are
evaluated, types are looked up, and the parameters of every class are put together with those
it inherits.

## Main definitions

* `Declared.resolve?`: a declared class as a class.
* `overrideParams`: inherited parameters and local ones put together.
* `Registry.assemble?`: the registry of what has been declared.
* `Registry.discover`: discovery and assembly over a host, which is left as it was.
-/

namespace SimMetadata

/-! ### Classes -/

/-- Whether the guard of a parameter enables it. The key has to be in the environment. -/
def ParamDecl.enabled? (env : BuildEnv) (className : String) (p : ParamDecl) :
    Except Failure Bool :=
  match p.guardKey with
  | none => .ok true
  | some key =>
    match env.get? key with
    | some value => .ok value.isTruthy
    | none => .error (.unknownEnvKey className p.name key)

/-- A declared parameter as a parameter. Its type has to be well-formed, and a class that it
refers to has to be declared. -/
def ParamDecl.resolve? (isEnum isClass : String → Bool) (className : String) (p : ParamDecl) :
    Except Failure Param :=
  match ParamType.ofText? isEnum p.type with
  | none => .error (.invalidParamType className p.name p.type)
  | some type =>
    if type.objectName?.all isClass then .ok ⟨p.name, type, p.desc, p.default⟩
    else .error (.unknownParamClass className p.name p.type)

/-- The enabled ones of some declared parameters as parameters. -/
def resolveParams? (env : BuildEnv) (isEnum isClass : String → Bool) (className : String) :
    List ParamDecl → Except Failure (List Param)
  | [] => .ok []
  | p :: ps => do
    if ← p.enabled? env className then
      let param ← p.resolve? isEnum isClass className
      return param :: (← resolveParams? env isEnum isClass className ps)
    else resolveParams? env isEnum isClass className ps

/-- A declared class as a class. -/
def Declared.resolve? (env : BuildEnv) (isEnum isClass : String → Bool) (c : Declared) :
    Except Failure ConfigClass := do
  let params ← resolveParams? env isEnum isClass c.decl.name c.decl.params
  return {
    name := c.decl.name
    parent := c.decl.effectiveParent?
    params
    «namespace» := c.decl.namespace
    nativeName := c.decl.nativeName.getD c.decl.name
    customDecl := c.decl.customDecl
    isAbstract := c.decl.isAbstract
    moduleName := c.moduleName }

/-! ### Inherited parameters -/

/-- The parameters with one more, which takes the place of one with its name. -/
def overrideParam (p : Param) : List Param → List Param
  | [] => [p]
  | q :: qs => if q.name = p.name then p :: qs else q :: overrideParam p qs

/-- The inherited parameters with the local ones, which take the place of those with their names
and else follow at the end. -/
def overrideParams (inherited locals : List Param) : List Param :=
  locals.foldl (fun all p => overrideParam p all) inherited

/-- The parameters of some classes, where each class comes after its parent. -/
def flattenParams (ordered : List ConfigClass) : NameMap (List Param) :=
  ordered.foldl
    (fun done c =>
      let inherited := ((c.parent >>= done.get?).getD [])
      done.insert c.name (overrideParams inherited c.params))
    NameMap.empty

/-! ### The registry -/

namespace Registry

/-- The types of some parameters that need a binding. One normalised name stands for one type, so
it does not matter which parameter it is taken from. -/
def bindingTypes (params : List Param) : NameMap ParamType :=
  (params.filter (·.type.needsBinding)).foldl
    (fun types p => types.insertNew p.type.name p.type) NameMap.empty

/-- The registry of what has been declared. -/
def assemble? (declared : NameMap Declared) (enums : NameMap Enumeration) (env : BuildEnv) :
    Except Failure Registry := do
  let classes ← declared.traverse fun _ c => c.resolve? env enums.contains declared.contains
  let ordered ← linearize classes classes.keys
  return {
    classes
    allParams := flattenParams ordered
    enums
    paramTypes := bindingTypes (classes.values.flatMap ConfigClass.params) }

/-- The registry of the requested classes, and the module table of the host afterwards: whatever
comes of it, the loader has removed what it installed. -/
def discover (host : ModuleTable) (d : Disk) (sources : List ScriptSource)
    (requested : List String) (env : BuildEnv) : Except Failure Registry × ModuleTable :=
  let loader := Loader.install host (sources.map fun s => (s.modpath, s.srcpath)) env
  let (exposed, walk) := (Discovery.explore d requested).run.run (Walk.start loader)
  let registry := do assemble? walk.classes walk.enums (← exposed)
  (registry, walk.loader.unload.host)

/-- The registry of the requested classes over a host of its own. -/
def ofSources? (d : Disk) (sources : List ScriptSource) (requested : List String)
    (env : BuildEnv) : Except Failure Registry :=
  (discover NameMap.empty d sources requested env).1

end Registry

end SimMetadata
