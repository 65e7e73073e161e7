import Remapping.CommandLine.Options
import Remapping.Settings.Basic

/-!
# What the command line says about itself

The name of the program, the answers to the questions for its version and for help, and the
messages about arguments that cannot be used.
-/

namespace Remapping.CommandLine

/-- The name of the program. -/
def program : Text := "yarn2tiny"

/-- The answer to the question for the version. -/
def versionLine : Text := program ++ ", version " ++ toolkitVersion ++ "\n"

/-- How the program is used, in one line. -/
def usageLine : Text := "Usage: " ++ program ++ " [OPTIONS] INPUT OUTPUT\n"

/-- The lines of the help after the first. -/
def helpLines : List Text := [
  "",
  "  Convert a yarn v1 mappings file into a tiny v1 mappings file.",
  "",
  "  INPUT is the yarn mappings file; OUTPUT is the tiny mappings file to create.",
  "  An existing OUTPUT is overwritten.",
  "",
  "  Examples:",
  "",
  "      yarn2tiny mappings/yarn.v1 mappings/tiny.v1",
  "  \x08",
  "      python -m yarn2tiny yarn.v1 tiny.v1 --report report.json",
  "",
  "Options:",
  "  -c, --config FILE  Path to a TinyRemap configuration file (TOML).",
  "  -r, --report FILE  Write a JSON conversion report to this path.",
  "  --json             Print the conversion report as JSON to stdout.",
  "  -v, --verbose      Enable verbose/debug output.",
  "  -q, --quiet        Suppress the banner and the console summary.",
  "  --version          Show the version and exit.",
  "  --help             Show this message and exit."]

/-- The answer to the question for help. -/
def help : Text := usageLine ++ helpLines.flatMap (· ++ [.char '\n'])

/-- The message about arguments that cannot be used. -/
def UsageError.message (e : UsageError) : Text :=
  let head : Text :=
    if e.showsUsage then usageLine ++ "Try '" ++ program ++ " --help' for help.\n\n" else []
  head ++ "Error: " ++ e.sentence ++ "\n"

end Remapping.CommandLine
