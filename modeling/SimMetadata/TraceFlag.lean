import SimMetadata.Disk
import SimMetadata.Toml.Document
import SimMetadata.Toml.Fields

/-!
# Trace flags

A trace flag names a category of debug output of the simulator. A simple flag stands for itself; a
compound flag stands for its members, which are simple flags. Flags are declared in a TOML file
of their own.

## Main definitions

* `TraceFlag`: a flag.
* `TraceFlag.ofToml?`: the flags of a TOML text.
* `TraceFlag.load?`: the flags of a file.
-/

namespace SimMetadata

/-- A category of debug output. -/
structure TraceFlag where
  name : String
  /-- Whether the flag stands for its members. -/
  isCompound : Bool
  /-- The simple flags that a compound flag stands for. -/
  members : List String
  /-- What the category is. -/
  desc : String
  deriving DecidableEq, Inhabited, Repr

namespace TraceFlag

open Toml

/-- The fields of a declaration, in order. -/
def fieldNames : List String := ["name", "compound", "members", "desc"]

/-- The flag that a declaration describes. Keys that are no fields are ignored. -/
def ofValue? (v : Value) : Option TraceFlag := do
  let fs ← fields? false fieldNames v
  return {
    name := ← fs.required? "name" Value.string?
    isCompound := ← fs.default? "compound" Value.boolean? false
    members := ← fs.default? "members" (Value.list? Value.string?) []
    desc := ← fs.default? "desc" Value.string? "" }

/-- The declared flags of a document, before anything is asked of them. -/
def declared? (text : String) : Option (List TraceFlag) := do
  let top : Fields ← Document.ofText? text
  top.default? "flag" (Value.list? ofValue?) []

/-- A flag that is not compound has no members. -/
def checkMembers? (f : TraceFlag) : Except Failure TraceFlag :=
  if f.isCompound ∨ f.members = [] then .ok f
  else .error (.invalidFlags (.simpleWithMembers f.name))

/-- The flags of a TOML text. -/
def ofToml? (text : String) : Except Failure (List TraceFlag) :=
  match declared? text with
  | none => .error (.invalidFlags .unreadable)
  | some flags => flags.mapM checkMembers?

/-- The flags of a file. -/
def load? (d : Disk) (p : Path) : Except Failure (List TraceFlag) :=
  match d.readText p with
  | .error fault => .error (.io p fault)
  | .ok text => ofToml? text

end TraceFlag

end SimMetadata
