import SimMetadata.ParamType

/-!
# Configuration classes

A configuration class describes one kind of simulated component: its place in the hierarchy of
single inheritance, its native counterpart, and the parameters that it declares itself.
-/

namespace SimMetadata

/-- The name of the class at the root of the hierarchy. -/
def rootClass : String := "SimObject"

/-- A class whose declaration has been resolved. -/
structure ConfigClass where
  name : String
  /-- The class that this one derives from. -/
  parent : Option String
  /-- The parameters that the class declares itself, in order. -/
  params : List Param
  /-- The native namespace. -/
  «namespace» : Option String
  /-- The native name, without the namespace. -/
  nativeName : String
  /-- The lines that declare the class in a binding module, in place of the usual ones. -/
  customDecl : Option (List String)
  /-- An abstract class has no factory. -/
  isAbstract : Bool
  /-- The module whose manifest declares the class. -/
  moduleName : String
  deriving DecidableEq, Inhabited, Repr

namespace ConfigClass

/-- Whether the class is the root of the hierarchy. -/
def isRoot (c : ConfigClass) : Bool := c.name = rootClass && c.parent.isNone

/-- The native name with the namespace. -/
def qualifiedName (c : ConfigClass) : String :=
  match c.namespace with
  | some ns => ns ++ "::" ++ c.nativeName
  | none => c.nativeName

/-- The name of the generated structure that holds the parameters. -/
def paramsStruct (c : ConfigClass) : String := c.name ++ "Params"

end ConfigClass

end SimMetadata
