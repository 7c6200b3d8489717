/-
The texts about the program itself.
-/
import Screenwright.Command.Arguments

namespace Screenwright

/-- The version of the program, with its name. -/
def versionText : String := "appforge 0.1.0\n"

/-- Lines as a text. -/
def textOfLines (lines : List String) : String :=
  String.join (lines.map (· ++ "\n"))

namespace HelpTopic

/-- The lines of help on a topic. -/
def lines : HelpTopic → List String
  | program =>
    ["Generate SwiftUI app sources from an app definition",
      "",
      "Usage: appforge [OPTIONS] <COMMAND>",
      "",
      "Commands:",
      "  generate  Generate the source tree of an app",
      "  check     Validate an app definition and report warnings without writing files",
      "  tokens    Print the design tokens derived from an app's appearance as JSON",
      "  help      Print this message or the help of the given subcommand(s)",
      "",
      "Options:",
      "  -v, --verbose...  Increase log verbosity (-v debug, -vv trace)",
      "  -h, --help        Print help",
      "  -V, --version     Print version"]
  | generate =>
    ["Generate the source tree of an app",
      "",
      "Usage: appforge generate [OPTIONS] --out <OUT> <APP>",
      "",
      "Arguments:",
      "  <APP>  App definition (JSON)",
      "",
      "Options:",
      "  -o, --out <OUT>        Directory the sources are written into",
      "  -v, --verbose...       Increase log verbosity (-v debug, -vv trace)",
      "  -c, --config <CONFIG>  Generator configuration (TOML)",
      "  -h, --help             Print help"]
  | check =>
    ["Validate an app definition and report warnings without writing files",
      "",
      "Usage: appforge check [OPTIONS] <APP>",
      "",
      "Arguments:",
      "  <APP>  App definition (JSON)",
      "",
      "Options:",
      "  -c, --config <CONFIG>  Generator configuration (TOML)",
      "  -v, --verbose...       Increase log verbosity (-v debug, -vv trace)",
      "  -h, --help             Print help"]
  | tokens =>
    ["Print the design tokens derived from an app's appearance as JSON",
      "",
      "Usage: appforge tokens [OPTIONS] <APP>",
      "",
      "Arguments:",
      "  <APP>  App definition (JSON)",
      "",
      "Options:",
      "  -v, --verbose...  Increase log verbosity (-v debug, -vv trace)",
      "  -h, --help        Print help"]
  | help =>
    ["Print this message or the help of the given subcommand(s)",
      "",
      "Usage: appforge help [COMMAND]...",
      "",
      "Arguments:",
      "  [COMMAND]...  Print help for the subcommand(s)"]

/-- The text of help on a topic. -/
def text (topic : HelpTopic) : String :=
  textOfLines topic.lines

end HelpTopic

end Screenwright
