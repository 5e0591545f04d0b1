import SimMetadata.BuildEnv
import SimMetadata.Text.Layout
import SimMetadata.Text.ScriptLiteral

/-!
# Modules of the scripting layer

Three small modules are generated for the scripting layer: the build environment as a dictionary,
the embedded files as variables, and the module that gathers the classes. The source that starts
the binding modules is native.
-/

namespace SimMetadata

open Text.ScriptLiteral (quote)

/-- A setting as a value of the scripting layer. -/
def EnvValue.scriptText : EnvValue → String
  | bool b => if b then "True" else "False"
  | int n => toString n
  | str s => quote s

/-- The build environment as a dictionary, by key. -/
def buildEnvText (env : BuildEnv) : String :=
  Text.unlines <|
    ["build_env = \x7b"]
      ++ env.settings.entries.map (fun e => "    " ++ quote e.1 ++ " : " ++ e.2.scriptText ++ ",")
      ++ ["\x7d"]

/-- A file that is embedded in the info module. -/
structure EmbeddedFile where
  /-- The variable that holds the file. -/
  variableName : String
  contents : String
  deriving DecidableEq, Inhabited, Repr

/-- The assignment of the file to its variable. -/
def EmbeddedFile.text (f : EmbeddedFile) : String := f.variableName ++ " = " ++ quote f.contents

/-- The info module: one assignment for each embedded file. -/
def infoText (files : List EmbeddedFile) : String := Text.unlines (files.map EmbeddedFile.text)

/-- The module that gathers the names of other modules. -/
def objectsInitText (modules : List String) : String :=
  Text.unlines <| "from params import *" :: modules.map fun m => "from " ++ m ++ " import *"

/-- The native source that starts the binding modules, in order. -/
def bindingInitText (modules : List String) : String :=
  Text.unlines <|
    ["extern \"C\" \x7b"] ++ modules.map (fun m => "    void init_" ++ m ++ "();")
      ++ ["\x7d", "", "void init_swig() \x7b"] ++ modules.map (fun m => "    init_" ++ m ++ "();")
      ++ ["\x7d"]

end SimMetadata
