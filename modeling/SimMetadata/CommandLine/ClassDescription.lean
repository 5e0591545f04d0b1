import SimMetadata.Registry
import SimMetadata.Text.Json

/-!
# The description of a class

A class is described with all parameters that it has, inherited ones included: as a table for
reading, or in JSON for tools.
-/

namespace SimMetadata

/-- A registered class and all its parameters. -/
structure ClassDescription where
  subject : ConfigClass
  params : List Param
  deriving DecidableEq, Repr

namespace ClassDescription

/-- The description of a registered class. -/
def ofClass? (r : Registry) (name : String) : Except Failure ClassDescription := do
  return ⟨← r.class? name, r.paramsOf name⟩

/-- Truth or falsehood in a word. -/
def truthText (b : Bool) : String := if b then "true" else "false"

/-- A parameter as a row: name, type, default and meaning. -/
def paramRow (p : Param) : String :=
  "  " ++ Text.padRight 20 p.name ++ " " ++ Text.padRight 20 p.type.name
    ++ (match p.default with
      | some d => " = " ++ Text.padRight 12 d
      | none => "   " ++ Text.padRight 12 "")
    ++ " " ++ p.desc

/-- The description as a table. -/
def text (c : ClassDescription) : String :=
  Text.unlines <|
    [c.subject.name, "--------------------",
      "  Parent:      " ++ c.subject.parent.getD "-",
      "  Native:      " ++ c.subject.qualifiedName,
      "  Abstract:    " ++ truthText c.subject.isAbstract,
      "  Module:      " ++ c.subject.moduleName,
      "Parameters:"]
      ++ c.params.map paramRow

open Text (Json)

/-- A parameter in JSON. -/
def paramJson (p : Param) : Json :=
  .object [("default", .ofOption p.default), ("desc", .string p.desc), ("name", .string p.name),
    ("type", .string p.type.name)]

/-- The description in JSON. -/
def json (c : ClassDescription) : Json :=
  .object [("abstract", .bool c.subject.isAbstract), ("cxx_class", .string c.subject.qualifiedName),
    ("module", .string c.subject.moduleName), ("name", .string c.subject.name),
    ("params", .array (c.params.map paramJson)), ("parent", .ofOption c.subject.parent)]

end ClassDescription

end SimMetadata
