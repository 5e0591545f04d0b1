import SimMetadata.CommandLine.Arguments
import SimMetadata.Text.Layout

/-!
# Help

The texts that the program prints about itself.
-/

namespace SimMetadata.CommandLine

/-- The name of the program. -/
def programName : String := "simgen"

/-- The program and its version. -/
def versionText : String := Text.unlines [programName ++ " 3.0.0"]

namespace HelpTopic

/-- What the topic is, in a line. -/
def summary : HelpTopic → String
  | program => "Simulation-object metadata generator"
  | generate => "Write every generated artifact"
  | describe => "Print a class and its flattened parameters"
  | provenance => "Print the provenance stamp of a source tree"
  | help => "Print this message or the help of the given subcommand(s)"

/-- How the topic is used. -/
def usage : HelpTopic → String
  | program => "[OPTIONS] <COMMAND>"
  | generate => "generate"
  | describe => "describe [OPTIONS] <CLASS>"
  | provenance => "provenance [DIR]"
  | help => "help [COMMAND]..."

/-- The paragraphs on arguments and options. -/
def details : HelpTopic → List String
  | program =>
    ["", "Commands:",
      "  generate    " ++ summary generate,
      "  describe    " ++ summary describe,
      "  provenance  " ++ summary provenance,
      "  help        " ++ summary help,
      "", "Options:",
      "  -c, --config <CONFIG>  [default: simgen.toml]",
      "  -v, --verbose...       Raise log verbosity (\x60-v\x60 debug, \x60-vv\x60 trace)",
      "  -h, --help             Print help",
      "  -V, --version          Print version"]
  | generate => ["", "Options:", "  -h, --help  Print help"]
  | describe =>
    ["", "Arguments:", "  <CLASS>  ", "", "Options:", "      --json  ", "  -h, --help  Print help"]
  | provenance => ["", "Arguments:", "  [DIR]  ", "", "Options:", "  -h, --help  Print help"]
  | help => ["", "Arguments:", "  [COMMAND]...  Print help for the subcommand(s)"]

/-- The page on the topic. -/
def text (t : HelpTopic) : String :=
  Text.unlines <| [t.summary, "", "Usage: " ++ programName ++ " " ++ t.usage] ++ t.details

end HelpTopic

end SimMetadata.CommandLine
