import SimMetadata.Path

/-!
# What can go wrong

Every failure is fatal to the step that meets it. `Failure` lists the causes with the names they
are about; the wording is in `Failure.message` alone.

## Main definitions

* `Failure`: the causes; `IoFault`, `EnvFault` and `FlagFault` refine three of them.
* `Failure.headline`: the text without what a reader of TOML or a writer of archives adds.
* `Failure.message`: the whole text.
* `Failure.cause?`: the text of a cause of its own, where there is one.
-/

namespace SimMetadata

/-- Why the disk refused an operation. -/
inductive IoFault where
  | notFound
  | alreadyExists
  | notADirectory
  | isADirectory
  | nameTooLong
  /-- The path has the character with number zero, which ends a path for the operating system. -/
  | zeroInPath
  /-- The bytes of a file that is read as text are not well-formed UTF-8. -/
  | notText
  deriving DecidableEq, Inhabited, Repr

/-- The wording of an operating system, with its error numbers. -/
def IoFault.reason : IoFault → String
  | notFound => "No such file or directory (os error 2)"
  | alreadyExists => "File exists (os error 17)"
  | notADirectory => "Not a directory (os error 20)"
  | isADirectory => "Is a directory (os error 21)"
  | nameTooLong => "File name too long (os error 36)"
  | zeroInPath => "file name contained an unexpected NUL byte"
  | notText => "stream did not contain valid UTF-8"

/-- Why a build environment is refused. -/
inductive EnvFault where
  /-- A key that is not an identifier. -/
  | keyNotIdentifier (key : String)
  /-- A value that is neither a truth value nor an integer nor a text; `kind` names what it is. -/
  | unsupportedValue (key kind : String)
  /-- The module of the environment exposes none. -/
  | notExposed (moduleName : String)
  deriving DecidableEq, Inhabited, Repr

/-- The wording of a fault of the environment. -/
def EnvFault.reason : EnvFault → String
  | keyNotIdentifier key => "key '" ++ key ++ "' is not an identifier"
  | unsupportedValue key kind => "key '" ++ key ++ "' has unsupported " ++ kind ++ " value"
  | notExposed moduleName =>
    "module '" ++ moduleName ++ "' does not expose an environment table"

/-- Why a list of trace flags is refused. -/
inductive FlagFault where
  /-- A flag has the name of the implicit compound. -/
  | reserved (name : String)
  | declaredTwice (name : String)
  /-- A compound flag lists a member that is not a simple flag. -/
  | notSimple (compound member : String)
  /-- A flag that is not compound lists members. -/
  | simpleWithMembers (name : String)
  /-- The text is no TOML or has not the shape of a flag list. -/
  | unreadable
  deriving DecidableEq, Inhabited, Repr

/-- The wording of a fault of the flag list. -/
def FlagFault.reason : FlagFault → String
  | reserved name => "'" ++ name ++ "' is reserved"
  | declaredTwice name => "flag '" ++ name ++ "' declared twice"
  | notSimple compound member =>
    "compound flag '" ++ compound ++ "' lists '" ++ member ++ "', which is not a simple flag"
  | simpleWithMembers name => "simple flag '" ++ name ++ "' lists members"
  | unreadable => "TOML"

/-- Why a step failed. -/
inductive Failure where
  /-- A requested class that its module does not declare, or whose module is not found. -/
  | unresolvedClass (name : String)
  /-- An imported module that is not found. -/
  | unresolvedImport (moduleName importer : String)
  /-- The base module is not found or does not declare the root class. -/
  | missingRoot (moduleName root : String)
  /-- A class whose parent no module declares. -/
  | unknownParent (className parent : String)
  /-- A class that is its own ancestor. -/
  | inheritanceCycle (name : String)
  /-- A class that two modules declare. -/
  | duplicateClass (name first second : String)
  | duplicateEnum (name : String)
  | duplicateEnumValue (enumeration value : String)
  | malformedEnv (fault : EnvFault)
  /-- A parameter guarded by a key that the environment has not. -/
  | unknownEnvKey (className param key : String)
  /-- A parameter whose type is not well-formed. -/
  | invalidParamType (className param type : String)
  /-- A parameter whose type names nothing that is registered. -/
  | unknownParamClass (className param type : String)
  /-- A manifest that is no TOML or has not the shape of one. -/
  | manifest (path : Path)
  /-- A build configuration that is no TOML or has not the shape of one. -/
  | config (path : Path)
  | unknownClass (name : String)
  | unknownEnum (name : String)
  | unknownParamType (name : String)
  | invalidFlags (fault : FlagFault)
  /-- A scripting source that is not text. -/
  | invalidSource (path : Path)
  /-- A file to bundle that no source is compiled to. -/
  | unknownCompiled (path : Path)
  /-- A file that two sources are compiled to. -/
  | duplicateCompiled (path : Path)
  /-- Two members of an archive have one name. -/
  | archive
  | io (path : Path) (fault : IoFault)
  deriving DecidableEq, Inhabited, Repr

namespace Failure

/-- The text of a failure, without the words of a TOML reader or an archive writer. -/
def headline : Failure → String
  | unresolvedClass name => "unresolved configuration class '" ++ name ++ "'"
  | unresolvedImport moduleName importer =>
    "module '" ++ moduleName ++ "' imported by '" ++ importer ++ "' could not be resolved"
  | missingRoot moduleName root =>
    "base runtime module '" ++ moduleName ++ "' must declare root class '" ++ root ++ "'"
  | unknownParent className parent =>
    "class '" ++ className ++ "' derives from unknown class '" ++ parent ++ "'"
  | inheritanceCycle name => "inheritance cycle through class '" ++ name ++ "'"
  | duplicateClass name first second =>
    "class '" ++ name ++ "' declared by both '" ++ first ++ "' and '" ++ second ++ "'"
  | duplicateEnum name => "enumeration '" ++ name ++ "' declared more than once"
  | duplicateEnumValue enumeration value =>
    "enumeration '" ++ enumeration ++ "' repeats value '" ++ value ++ "'"
  | malformedEnv fault => "malformed build environment: " ++ fault.reason
  | unknownEnvKey className param key =>
    "parameter '" ++ param ++ "' of '" ++ className ++ "' is guarded by unknown environment key '"
      ++ key ++ "'"
  | invalidParamType className param type =>
    "invalid parameter type '" ++ type ++ "' for '" ++ className ++ "." ++ param ++ "'"
  | unknownParamClass className param type =>
    "parameter '" ++ param ++ "' of '" ++ className ++ "' has type '" ++ type
      ++ "' naming an unknown class"
  | manifest path => "failed to parse manifest " ++ path.text
  | config path => "failed to parse build configuration " ++ path.text
  | unknownClass name => "no configuration class named '" ++ name ++ "' is registered"
  | unknownEnum name => "no enumeration named '" ++ name ++ "' is registered"
  | unknownParamType name =>
    "no binding-eligible parameter type named '" ++ name ++ "' is registered"
  | invalidFlags fault => "invalid trace flag list: " ++ fault.reason
  | invalidSource path => "scripting source " ++ path.text ++ " is not valid UTF-8"
  | unknownCompiled path => "no source descriptor produces compiled file " ++ path.text
  | duplicateCompiled path =>
    "compiled file " ++ path.text ++ " is produced by more than one source"
  | archive => "archive error"
  | io path fault => "I/O error on " ++ path.text ++ ": " ++ fault.reason

/-- The cause of a failure that a report lists as one of its own. -/
def cause? : Failure → Option String
  | manifest _ | config _ => some "TOML parse error"
  | archive => some "invalid Zip archive: Duplicate filename"
  | io _ fault => some fault.reason
  | _ => none

/-- The whole text of a failure. -/
def message (f : Failure) : String :=
  match f with
  | manifest _ | config _ | archive => f.headline ++ ": " ++ (f.cause?.getD "")
  | invalidFlags .unreadable => f.headline ++ " parse error"
  | _ => f.headline

end Failure

end SimMetadata
