import SimMetadata.Failure
import SimMetadata.NameMap
import SimMetadata.Text.Identifier
import SimMetadata.Toml.Value

/-!
# The build environment

The build environment is the table of settings with which a build is run. Its keys are
identifiers, its values truth values, integers and texts. Parameters can be guarded by a key, and
the scripting layer receives a copy of the whole table.

## Main definitions

* `EnvValue`, `EnvValue.isTruthy`: a setting, and whether it enables what it guards.
* `BuildEnv.insert?`: the only way to add a setting; it refuses a key that is no identifier.
* `BuildEnv.ofTable?`: the environment that a TOML table describes.
-/

namespace SimMetadata

/-- The value of a setting. -/
inductive EnvValue where
  | bool (b : Bool)
  | int (n : Int)
  | str (s : String)
  deriving DecidableEq, Inhabited, Repr

namespace EnvValue

/-- Whether the setting enables what it guards: truth, a number other than zero, a text that is
not empty. -/
def isTruthy : EnvValue → Bool
  | bool b => b
  | int n => n ≠ 0
  | str s => s ≠ ""

/-- The value as plain text. -/
def display : EnvValue → String
  | bool b => if b then "true" else "false"
  | int n => toString n
  | str s => s

/-- The setting that a TOML value stands for, if it is of a kind that settings may have. -/
def ofToml? : Toml.Value → Option EnvValue
  | .boolean b => some (bool b)
  | .integer n => some (int n)
  | .string s => some (str s)
  | _ => none

end EnvValue

/-- The settings of a build, by key. -/
structure BuildEnv where
  settings : NameMap EnvValue
  deriving DecidableEq, Inhabited

namespace BuildEnv

/-- The environment without settings. -/
def empty : BuildEnv := ⟨NameMap.empty⟩

/-- The value of a setting. -/
def get? (env : BuildEnv) (key : String) : Option EnvValue := env.settings.get? key

/-- How many settings there are. -/
def size (env : BuildEnv) : Nat := env.settings.size

/-- The environment with a setting added or replaced. -/
def insert? (env : BuildEnv) (key : String) (value : EnvValue) : Except Failure BuildEnv :=
  if Text.isIdentifier key.toList then .ok ⟨env.settings.insert key value⟩
  else .error (.malformedEnv (.keyNotIdentifier key))

/-- The environment with the setting that an entry of a table describes. The kind of the value is
looked at before the key. -/
def insertSetting? (env : BuildEnv) (key : String) (value : Toml.Value) : Except Failure BuildEnv :=
  match EnvValue.ofToml? value with
  | some v => env.insert? key v
  | none => .error (.malformedEnv (.unsupportedValue key value.kind))

/-- The environment that a table describes. Its entries are visited by key. -/
def ofTable? (entries : List (String × Toml.Value)) : Except Failure BuildEnv :=
  (NameMap.ofList entries).entries.foldlM (fun env e => env.insertSetting? e.1 e.2) empty

end BuildEnv

end SimMetadata
