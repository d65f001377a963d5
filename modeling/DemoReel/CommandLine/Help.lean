import DemoReel.CommandLine.Arguments

/-!
# Help pages
-/

namespace DemoReel.CommandLine

def ofLines (lines : List String) : String := String.join (lines.map (· ++ "\n"))

def HelpPage.text : HelpPage → String
  | program => ofLines [
      "Decode and inspect recorded demo programs",
      "",
      "Usage: rush-demo [OPTIONS] <COMMAND>",
      "",
      "Commands:",
      "  inspect   Decode a demo chunk and list its programs",
      "  bindings  Print the effective demo to stage bindings",
      "  help      Print this message or the help of the given subcommand(s)",
      "",
      "Options:",
      "      --config <CONFIG>  Config file to use instead of ~/.rush-demo/config.toml",
      "  -h, --help             Print help"]
  | inspect => ofLines [
      "Decode a demo chunk and list its programs",
      "",
      "Usage: rush-demo inspect [OPTIONS] <ARCHIVE>",
      "",
      "Arguments:",
      "  <ARCHIVE>  Raw demo chunk bytes",
      "",
      "Options:",
      "      --config <CONFIG>    Config file to use instead of ~/.rush-demo/config.toml",
      "      --strings <STRINGS>  Localized string table, one string per line",
      "      --json               Print JSON instead of text",
      "  -h, --help               Print help"]
  | bindings => ofLines [
      "Print the effective demo to stage bindings",
      "",
      "Usage: rush-demo bindings [OPTIONS]",
      "",
      "Options:",
      "      --config <CONFIG>  Config file to use instead of ~/.rush-demo/config.toml",
      "  -h, --help             Print help"]
  | help => ofLines [
      "Print this message or the help of the given subcommand(s)",
      "",
      "Usage: rush-demo help [COMMAND]...",
      "",
      "Arguments:",
      "  [COMMAND]...  Print help for the subcommand(s)"]

/-- The answer to a command line that makes no sense. -/
def usageHint : String := ofLines [
  "error: these arguments were not understood",
  "",
  "Usage: rush-demo [OPTIONS] <COMMAND>",
  "",
  "For more information, try --help."]

end DemoReel.CommandLine
