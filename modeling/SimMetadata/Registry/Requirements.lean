import SimMetadata.ConfigClass

/-!
# What a binding module has to know beforehand

The parameters of the classes in a binding module use native types that have to be declared in
front of the classes, and enumerations whose headers have to be included.
-/

namespace SimMetadata

/-- What has to stand in front of some classes. -/
structure Requirements where
  /-- Lines of declarations, each where it is needed first. -/
  predecls : List String
  /-- Enumerations, by name. -/
  enums : List String
  deriving DecidableEq, Inhabited, Repr

/-- What the parameters of some classes require. -/
def Requirements.ofClasses (classes : List ConfigClass) : Requirements :=
  let types := classes.flatMap fun c => c.params.map Param.type
  { predecls := (types.flatMap ParamType.predecls).eraseDups
    enums := (NameSet.ofNames (types.filterMap ParamType.enumName?)).keys }

end SimMetadata
