import SimMetadata.Artifact.EnumTables
import SimMetadata.Artifact.Interface
import SimMetadata.Registry.Requirements

/-!
# The aggregate binding module

One binding module covers a set of classes and all their ancestors. It includes their headers,
then gives what their parameters require, then declares each class, parents first, and includes
the headers once more for the binding generator itself.

A class is declared by the lines that its manifest gives, or else by a stub that keeps the binding
layer from making or destroying the native object.

## Main definitions

* `Aggregate`, `ClassBlock`: what the module contains.
* `Aggregate.ofNames?`: the module over some classes.
-/

namespace SimMetadata

/-- The declaration of a class in a binding module. -/
inductive ClassBlock where
  /-- The lines that the manifest gives. -/
  | custom (lines : List String)
  /-- An empty class under its native name, which may derive from another. -/
  | stub («namespace» : Option String) (nativeName : String) (base : Option String)
  deriving DecidableEq, Inhabited, Repr

namespace ClassBlock

/-- The declaration of a registered class. -/
def ofClass? (r : Registry) (c : ConfigClass) : Except Failure ClassBlock :=
  match c.customDecl with
  | some lines => .ok (custom lines)
  | none =>
    match c.parent with
    | none => .ok (stub c.namespace c.nativeName none)
    | some parent => do
      return stub c.namespace c.nativeName (some (← r.class? parent).qualifiedName)

/-- The lines of the declaration. -/
def lines : ClassBlock → List String
  | custom given => given
  | stub ns nativeName base =>
    let derivation := match base with
      | some b => " : public " ++ b
      | none => ""
    let declaration :=
      ["// stop swig from creating/wrapping default ctor/dtor",
        "%nodefault " ++ nativeName ++ ";", "class " ++ nativeName ++ derivation ++ " \x7b\x7d;"]
    match ns with
    | some n => ["namespace " ++ n ++ " \x7b"] ++ declaration ++ ["\x7d"]
    | none => declaration

end ClassBlock

/-- The binding module over some classes. -/
structure Aggregate where
  /-- The classes, by name, every one after its parent. -/
  classNames : List String
  requirements : Requirements
  /-- The declarations of the classes, in the same order. -/
  blocks : List ClassBlock
  deriving DecidableEq, Inhabited, Repr

namespace Aggregate

/-- The name of the module. -/
def moduleName : String := "params"

/-- The header of the root class that is written by hand. -/
def rootParamsHeader : String := "sim/sim_object_params.hh"

/-- The module over some classes and their ancestors. -/
def ofNames? (r : Registry) (names : List String) : Except Failure Aggregate := do
  let ordered ← r.order names
  return {
    classNames := ordered.map ConfigClass.name
    requirements := .ofClasses ordered
    blocks := ← ordered.mapM (ClassBlock.ofClass? r) }

/-- The directive that makes the binding generator read a header. -/
def includeLine (path : String) : String := "%include \"" ++ path ++ "\""

/-- The lines that declare the classes. -/
def blockLines (a : Aggregate) : List String := a.blocks.flatMap fun b => b.lines ++ [""]

/-- The lines of the module. -/
def lines (a : Aggregate) : List String :=
  ["%module " ++ moduleName, "", "%\x7b"]
    ++ a.classNames.map (fun n => "#include \"" ++ interfacePath n ++ "\"")
    ++ ["%\x7d", ""]
    ++ a.requirements.predecls
    ++ a.requirements.enums.map (fun e => includeLine (enumHeaderPath e))
    ++ [""]
    ++ a.blockLines
    ++ [includeLine rootParamsHeader]
    ++ a.classNames.map fun n => includeLine (interfacePath n)

/-- The module as it is written. -/
def text (a : Aggregate) : String := Text.unlines a.lines

end Aggregate

end SimMetadata
