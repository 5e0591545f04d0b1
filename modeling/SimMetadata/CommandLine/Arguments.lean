import SimMetadata.Path

/-!
# Arguments of the command line

The arguments are options, then the name of a command, then what belongs to that command. Options
of one letter can be joined, `-vvc FILE`; an option that takes a value finds it behind an equals
sign, in the rest of the joined letters, or in the next argument, which then must not look like an
option itself.

A value in an argument of its own is checked only when the next option comes, or else after the
arguments of the command. Help that the command gives therefore comes before what is wrong with
such a value.

## Main definitions

* `Invocation`: the command to be executed, with its options.
* `Request`: an invocation, or a question about the program itself.
* `Request.ofArguments?`: what some arguments ask for; there is no answer to a misuse.
-/

namespace SimMetadata.CommandLine

/-- What the program can do. -/
inductive Command where
  /-- Write all generated files. -/
  | generate
  /-- Print a class with all its parameters. -/
  | describe (className : String) (asJson : Bool)
  /-- Print the provenance of a tree. -/
  | provenance (dir : Path)
  deriving DecidableEq, Repr

/-- A command with the options in front of it. -/
structure Invocation where
  /-- The build configuration. -/
  config : Path
  /-- How much is logged. -/
  verbosity : Nat
  command : Command
  deriving DecidableEq, Repr

/-- What a page of help is about. -/
inductive HelpTopic where
  | program
  | generate
  | describe
  | provenance
  | help
  deriving DecidableEq, Repr

/-- What the arguments ask for. -/
inductive Request where
  | invoke (i : Invocation)
  | help (topic : HelpTopic)
  | version
  deriving DecidableEq, Repr

/-- Whether an argument looks like an option. A single dash does not. -/
def looksLikeOption (argument : String) : Bool :=
  argument.toList.head? = some '-' && argument ≠ "-"

/-- What follows an equals sign after the name of an option. -/
def attachedValue? (option argument : String) : Option String :=
  let name := (option ++ "=").toList
  if name.isPrefixOf argument.toList then some (String.ofList (argument.toList.drop name.length))
  else none

/-- A path cannot be empty. -/
def path? (value : String) : Option Path := if value = "" then none else some ⟨value⟩

/-! ### Commands -/

/-- The arguments after which a page of help is asked for. -/
def asksForHelp (argument : String) : Bool :=
  argument = "--help" || ['-', 'h'].isPrefixOf argument.toList

/-- The arguments of `generate`: none. -/
def generate? : List String → Option (Command ⊕ HelpTopic)
  | [] => some (.inl .generate)
  | ["--"] => some (.inl .generate)
  | argument :: _ => if asksForHelp argument then some (.inr .generate) else none

/-- The class among the arguments that cannot be options any more. -/
def lastClass? (className : Option String) (asJson : Bool) : List String → Option Command
  | [] => className.map fun c => .describe c asJson
  | [c] => if className.isNone then some (.describe c asJson) else none
  | _ => none

/-- The arguments of `describe`: a class, and perhaps a format. -/
def describe? (className : Option String) (asJson : Bool) :
    List String → Option (Command ⊕ HelpTopic)
  | [] => className.map fun c => .inl (.describe c asJson)
  | argument :: rest =>
    if argument = "--" then (lastClass? className asJson rest).map .inl
    else if asksForHelp argument then some (.inr .describe)
    else if argument = "--json" then if asJson then none else describe? className true rest
    else if looksLikeOption argument then none
    else if className.isNone then describe? (some argument) asJson rest
    else none

/-- The arguments of `provenance`: perhaps a directory. -/
def provenance? (dir : Option Path) : List String → Option (Command ⊕ HelpTopic)
  | [] => some (.inl (.provenance (dir.getD ⟨"."⟩)))
  | "--" :: rest =>
    match dir, rest with
    | _, [] => some (.inl (.provenance (dir.getD ⟨"."⟩)))
    | none, [argument] => (path? argument).map fun p => .inl (.provenance p)
    | _, _ => none
  | argument :: rest =>
    if asksForHelp argument then some (.inr .provenance)
    else if looksLikeOption argument then none
    else match dir, path? argument with
      | none, some p => provenance? (some p) rest
      | _, _ => none

/-- The arguments of `help`: perhaps a command. -/
def helpTopic? : List String → Option HelpTopic
  | [] => some .program
  | ["generate"] => some .generate
  | ["describe"] => some .describe
  | ["provenance"] => some .provenance
  | ["help"] => some .help
  | _ => none

/-- A command and its arguments, or the help that they ask for. -/
def command? (name : String) (arguments : List String) : Option (Command ⊕ HelpTopic) :=
  match name with
  | "generate" => generate? arguments
  | "describe" => describe? none false arguments
  | "provenance" => provenance? none arguments
  | "help" => (helpTopic? arguments).map .inr
  | _ => none

/-! ### Options -/

/-- What an argument in front of the command is. -/
inductive OptionKind where
  /-- So many times more logging. -/
  | verbose (times : Nat)
  /-- So many times more logging, and a configuration. Without a value here, the next argument is
  the value. -/
  | config (times : Nat) (value : Option String)
  | help
  | version
  /-- Looks like an option and is none. -/
  | unknown
  /-- No option: the name of the command. -/
  | command
  deriving DecidableEq, Repr

/-- What joined letters are; those before have asked so many times for more logging. -/
def OptionKind.ofLetters (times : Nat) : List Char → OptionKind
  | [] => verbose times
  | 'v' :: rest => ofLetters (times + 1) rest
  | ['c'] => config times none
  | 'c' :: '=' :: value => config times (some (String.ofList value))
  | 'c' :: value => config times (some (String.ofList value))
  | 'h' :: _ => help
  | 'V' :: _ => version
  | _ => unknown

/-- What an argument is. -/
def OptionKind.ofArgument (argument : String) : OptionKind :=
  if looksLikeOption argument then
    match argument with
    | "--config" => config 0 none
    | "--verbose" => verbose 1
    | "--help" => help
    | "--version" => version
    | _ =>
      match attachedValue? "--config" argument with
      | some value => config 0 (some value)
      | none => ofLetters 0 (argument.toList.drop 1)
  else command

/-- The configuration that has been named, once a value for it is checked: it has to be a path, and
the only one. -/
def checked? (config : Option Path) : Option String → Option (Option Path)
  | none => some config
  | some value => if config.isSome then none else (path? value).map some

/-- What the options and the command behind them ask for. The configuration can be named once; the
value that was named last may still have to be checked. -/
def options? (config : Option Path) (unchecked : Option String) (verbosity : Nat) :
    List String → Option Request
  | [] => none
  | argument :: rest =>
    match OptionKind.ofArgument argument with
    | .verbose times => do options? (← checked? config unchecked) none (verbosity + times) rest
    | .config times (some value) => do
      let config ← checked? (← checked? config unchecked) (some value)
      options? config none (verbosity + times) rest
    | .config times none =>
      match rest with
      | [] => none
      | value :: rest =>
        if looksLikeOption value then none
        else do options? (← checked? config unchecked) (some value) (verbosity + times) rest
    | .help => do
      let _ ← checked? config unchecked
      return .help .program
    | .version => do
      let _ ← checked? config unchecked
      return .version
    | .unknown => none
    | .command => do
      match ← command? argument rest with
      | .inr topic => return .help topic
      | .inl command =>
        let config ← checked? config unchecked
        return .invoke ⟨config.getD ⟨"simgen.toml"⟩, verbosity, command⟩

/-- What the arguments ask for. -/
def Request.ofArguments? (arguments : List String) : Option Request :=
  options? none none 0 arguments

/-! ### Instances -/

example : Request.ofArguments? [] = none := by decide
example : Request.ofArguments? ["-vvc", "b.toml", "generate"]
    = some (.invoke ⟨⟨"b.toml"⟩, 2, .generate⟩) := by decide
example : Request.ofArguments? ["describe", "--", "--json"]
    = some (.invoke ⟨⟨"simgen.toml"⟩, 0, .describe "--json" false⟩) := by decide
example : Request.ofArguments? ["describe", "Bus", "-c", "b.toml"] = none := by decide
example : Request.ofArguments? ["-c", "", "describe", "Bus"] = none := by decide
example : Request.ofArguments? ["-c", "", "describe", "--help"] = some (.help .describe) := by
  decide

end SimMetadata.CommandLine
