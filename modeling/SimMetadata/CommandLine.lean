import SimMetadata.CommandLine.Arguments
import SimMetadata.CommandLine.ClassDescription
import SimMetadata.CommandLine.Help
import SimMetadata.CommandLine.Report
import SimMetadata.Generation

/-!
# The command line

What the program does with its arguments, as a function from a disk to an outcome and a disk.

## Main definitions

* `CommandLine.execute`: carries out a command.
* `CommandLine.run`: the program.
-/

namespace SimMetadata.CommandLine

/-- The configuration of an invocation. -/
def loadConfig? (d : Disk) (config : Path) : Except FailureReport BuildConfig :=
  (BuildConfig.load? d config).mapError (.ofStep ("loading " ++ config.text))

/-- Writes all generated files. -/
def generate (versionControl : Provenance.Lookup) (d : Disk) (config : Path) :
    Except FailureReport Answer × Disk :=
  match loadConfig? d config with
  | .error report => (.error report, d)
  | .ok c =>
    match c.generate versionControl d with
    | (.error failure, d) => (.error (.ofStep "generation failed" failure), d)
    | (.ok statistics, d) => (.ok (.statistics statistics), d)

/-- Describes a class. Nothing but this class and what it leads to is looked at. -/
def describeClass? (d : Disk) (config : Path) (className : String) :
    Except FailureReport ClassDescription := do
  let c ← loadConfig? d config
  let env ← c.env?.mapError .ofFailure
  let registry ← (Registry.ofSources? d c.scriptSources [className] env).mapError
    (.ofStep "discovery failed")
  (ClassDescription.ofClass? registry className).mapError .ofFailure

/-- The description of a class in one of its two forms. -/
def describe (d : Disk) (config : Path) (className : String) (asJson : Bool) :
    Except FailureReport Answer := do
  let description ← describeClass? d config className
  return .text (if asJson then description.json.text ++ "\n" else description.text)

/-- Carries out a command. -/
def execute (versionControl : Provenance.Lookup) (d : Disk) (i : Invocation) :
    Except FailureReport Answer × Disk :=
  match i.command with
  | .generate => generate versionControl d i.config
  | .describe className asJson => (describe d i.config className asJson, d)
  | .provenance dir => (.ok (.text (Provenance.probe versionControl d dir).text), d)

/-- The program: what comes of its arguments, and the disk that it leaves behind. -/
def run (versionControl : Provenance.Lookup) (d : Disk) (arguments : List String) :
    Outcome × Disk :=
  match Request.ofArguments? arguments with
  | none => (.misused, d)
  | some .version => (.answered (.text versionText), d)
  | some (.help topic) => (.answered (.text topic.text), d)
  | some (.invoke i) =>
    match execute versionControl d i with
    | (.error report, d) => (.failed report, d)
    | (.ok answer, d) => (.answered answer, d)

end SimMetadata.CommandLine
