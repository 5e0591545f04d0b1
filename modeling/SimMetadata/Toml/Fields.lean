import SimMetadata.Toml.Value

/-!
# Reading records from TOML

A declaration in a document is a record: a table whose keys are the fields, or an array of the
fields in order, where fields at the end may be missing. `fields?` turns both into a list of
named values, from which the fields are then taken one by one.

## Main definitions

* `Value.string?` and the like: the value as one of a kind.
* `fields?`: the named values of a record.
* `Fields.required?`, `Fields.optional?`, `Fields.default?`: one field.
-/

namespace SimMetadata.Toml

namespace Value

/-- The text, if the value is a string. -/
def string? : Value → Option String
  | string s => some s
  | _ => none

/-- The number, if the value is an integer. -/
def integer? : Value → Option Int
  | integer n => some n
  | _ => none

/-- The truth value, if the value is one. -/
def boolean? : Value → Option Bool
  | boolean b => some b
  | _ => none

/-- The items, if the value is an array whose items can all be read. -/
def list? {α : Type} (read : Value → Option α) : Value → Option (List α)
  | array items => items.mapM read
  | _ => none

/-- The entries, if the value is a table. A date-time has the form of a table. -/
def entries? : Value → Option (List (String × Value))
  | table entries => some entries
  | datetime d => some [(datetimeKey, string d.text)]
  | _ => none

end Value

/-- The fields of a record that are given, by name. -/
abbrev Fields := List (String × Value)

/-- The entries of a table as the fields of a record. In a strict record every key has to be the
name of a field. -/
def fieldsOfEntries? (strict : Bool) (names : List String) (entries : List (String × Value)) :
    Option Fields :=
  if strict ∧ ¬ entries.all (fun e => names.contains e.1) then none else some entries

/-- The fields of a record with these fields in order. Items of an array beyond the last field
are ignored. -/
def fields? (strict : Bool) (names : List String) : Value → Option Fields
  | .array items => some (names.zip items)
  | v => do fieldsOfEntries? strict names (← v.entries?)

namespace Fields

variable {α : Type}

/-- A field that has to be given. -/
def required? (fs : Fields) (name : String) (read : Value → Option α) : Option α :=
  fs.lookup name >>= read

/-- A field that may be missing. -/
def optional? (fs : Fields) (name : String) (read : Value → Option α) : Option (Option α) :=
  match fs.lookup name with
  | none => some none
  | some v => (read v).map some

/-- A field that has a default. -/
def default? (fs : Fields) (name : String) (read : Value → Option α) (default : α) : Option α :=
  match fs.lookup name with
  | none => some default
  | some v => read v

end Fields

end SimMetadata.Toml
