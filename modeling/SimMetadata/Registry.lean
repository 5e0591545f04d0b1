import SimMetadata.Enumeration
import SimMetadata.Registry.Linearization

/-!
# The registry

What discovery publishes: the classes, the enumerations, and the parameter types that need a
binding of their own. A registry is never changed; everything that is generated is looked up in
it.

## Main definitions

* `Registry`: the three maps, and for each class the parameters it has with the inherited ones.
* `Registry.class?`, `Registry.enum?`, `Registry.paramType?`: look-ups that name what is missing.
* `Registry.order`: classes and their ancestors, parents first.
-/

namespace SimMetadata

/-- The classes, enumerations and parameter types of a build. -/
structure Registry where
  classes : NameMap ConfigClass
  /-- For each class, its parameters: the inherited ones and then its own, each name once. -/
  allParams : NameMap (List Param)
  enums : NameMap Enumeration
  /-- The types that need a declaration in a binding module, by normalised name. -/
  paramTypes : NameMap ParamType
  deriving DecidableEq, Inhabited

namespace Registry

/-- The class with a name. -/
def class? (r : Registry) (name : String) : Except Failure ConfigClass :=
  match r.classes.get? name with
  | some c => .ok c
  | none => .error (.unknownClass name)

/-- The enumeration with a name. -/
def enum? (r : Registry) (name : String) : Except Failure Enumeration :=
  match r.enums.get? name with
  | some e => .ok e
  | none => .error (.unknownEnum name)

/-- The type with a normalised name, among those that need a binding. -/
def paramType? (r : Registry) (name : String) : Except Failure ParamType :=
  match r.paramTypes.get? name with
  | some t => .ok t
  | none => .error (.unknownParamType name)

/-- The parameters of a class, with the inherited ones. -/
def paramsOf (r : Registry) (className : String) : List Param :=
  (r.allParams.get? className).getD []

/-- The parameter of a class with a name, which may be inherited. -/
def param? (r : Registry) (className name : String) : Option Param :=
  (r.paramsOf className).find? (·.name = name)

/-- The named classes and all their ancestors, every class after its parent. -/
def order (r : Registry) (names : List String) : Except Failure (List ConfigClass) :=
  linearize r.classes names

end Registry

end SimMetadata
