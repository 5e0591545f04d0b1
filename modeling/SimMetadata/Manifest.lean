import SimMetadata.Disk
import SimMetadata.Enumeration
import SimMetadata.Toml.Document
import SimMetadata.Toml.Fields

/-!
# Manifests

A manifest is the source of a module: it names the modules that it depends on and declares
enumerations and classes. Nothing in it is resolved yet: types are texts, parents are names.

## Main definitions

* `Manifest`, `ClassDecl`, `ParamDecl`: the declarations.
* `Manifest.ofToml?`: the manifest of a TOML text.
* `Manifest.load?`: the manifest of a file.
-/

namespace SimMetadata

open Toml

/-- The declaration of a parameter. -/
structure ParamDecl where
  name : String
  /-- The type as it is written. -/
  type : String
  desc : String
  /-- The default value as text: a string is its own text, any other value its written form. -/
  default : Option String
  /-- The key of the build environment that the parameter depends on. -/
  guardKey : Option String
  deriving DecidableEq, Inhabited, Repr

/-- The declaration of a class. -/
structure ClassDecl where
  name : String
  parent : Option String
  isAbstract : Bool
  «namespace» : Option String
  /-- The native name, where it is not the name of the class. -/
  nativeName : Option String
  /-- The lines that declare the class in a binding module, where they are given. -/
  customDecl : Option (List String)
  params : List ParamDecl
  deriving DecidableEq, Inhabited, Repr

/-- The source of a module. -/
structure Manifest where
  /-- The modules to be imported before this one. -/
  imports : List String
  enums : List EnumDecl
  classes : List ClassDecl
  deriving DecidableEq, Inhabited, Repr

/-! ### Reading -/

/-- The text of a default value. A date-time by itself is written as the table that stands for
it. -/
def defaultText? (v : Value) : Option String := do
  match ← v.settle? with
  | .string s => some s
  | .datetime d => some (Value.table [(datetimeKey, .string d.text)]).text
  | other => some other.text

namespace ParamDecl

/-- The fields of a declaration, in order. -/
def fieldNames : List String := ["name", "type", "desc", "default", "when"]

/-- The parameter that a declaration describes. -/
def ofValue? (v : Value) : Option ParamDecl := do
  let fs ← fields? true fieldNames v
  return {
    name := ← fs.required? "name" Value.string?
    type := ← fs.required? "type" Value.string?
    desc := ← fs.default? "desc" Value.string? ""
    default := ← fs.optional? "default" defaultText?
    guardKey := ← fs.optional? "when" Value.string? }

end ParamDecl

namespace ClassDecl

/-- The fields of a declaration, in order. -/
def fieldNames : List String :=
  ["name", "parent", "abstract", "namespace", "cxx_class", "decl", "param"]

/-- The class that a declaration describes. -/
def ofValue? (v : Value) : Option ClassDecl := do
  let fs ← fields? true fieldNames v
  return {
    name := ← fs.required? "name" Value.string?
    parent := ← fs.optional? "parent" Value.string?
    isAbstract := ← fs.default? "abstract" Value.boolean? false
    «namespace» := ← fs.optional? "namespace" Value.string?
    nativeName := ← fs.optional? "cxx_class" Value.string?
    customDecl := ← fs.optional? "decl" (Value.list? Value.string?)
    params := ← fs.default? "param" (Value.list? ParamDecl.ofValue?) [] }

end ClassDecl

namespace EnumEntry

/-- The entry that a value describes: a name, or a table of a name and a number, in which other
keys are ignored. -/
def ofValue? : Value → Option EnumEntry
  | .string name => some (bare name)
  | .table entries => do
    let fs : Fields := entries
    return explicit (← fs.required? "name" Value.string?) (← fs.required? "value" Value.integer?)
  | _ => none

end EnumEntry

namespace EnumDecl

/-- The fields of a declaration, in order. -/
def fieldNames : List String := ["name", "values"]

/-- The enumeration that a declaration describes. -/
def ofValue? (v : Value) : Option EnumDecl := do
  let fs ← fields? true fieldNames v
  return {
    name := ← fs.required? "name" Value.string?
    entries := ← fs.required? "values" (Value.list? EnumEntry.ofValue?) }

end EnumDecl

namespace Manifest

/-- The keys of a manifest. -/
def fieldNames : List String := ["imports", "enum", "class"]

/-- The manifest that the entries of a document describe. -/
def ofEntries? (entries : List (String × Value)) : Option Manifest := do
  let fs ← fieldsOfEntries? true fieldNames entries
  return {
    imports := ← fs.default? "imports" (Value.list? Value.string?) []
    enums := ← fs.default? "enum" (Value.list? EnumDecl.ofValue?) []
    classes := ← fs.default? "class" (Value.list? ClassDecl.ofValue?) [] }

/-- The manifest of a TOML text; a failure names the path. -/
def ofToml? (p : Path) (text : String) : Except Failure Manifest :=
  match Document.ofText? text >>= ofEntries? with
  | none => .error (.manifest p)
  | some m => .ok m

/-- The manifest of a file. -/
def load? (d : Disk) (p : Path) : Except Failure Manifest :=
  match d.readText p with
  | .error fault => .error (.io p fault)
  | .ok text => ofToml? p text

end Manifest

end SimMetadata
