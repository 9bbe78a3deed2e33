import Immutability.CommandLine.Argument

/-!
# Help

What the program prints when it is asked for help, or when its arguments are mistaken.
-/

namespace Immutability.CommandLine

/-- The commands and options of the program. -/
def helpText : String := String.join ([
  "Static immutability analysis for compiled JVM classes",
  "",
  "Usage: mutcheck [-v]... <COMMAND>",
  "",
  "Commands:",
  "  check  Analyse classes for immutability [aliases: analyse]",
  "  init   Create a new mutcheck configuration from a template",
  "  help   Print this message",
  "",
  "Options of check, which also takes the classes to analyse:",
  "  -p, --classpath <PATH>...  Class directories or jar files to read classes from",
  "      --class-list <FILE>    File listing classes to analyse, one per line",
  "  -m, --match <PATTERN>      Only analyse classes whose name matches this regular expression",
  "  -c, --config <FILE>        Path to configuration YAML file (default: auto-discover)",
  "      --preset <NAME>        Presets of known classes to load: jdk, guava",
  "      --fail-fast            Abort on the first class or checker that cannot be analysed",
  "  -f, --format <FORMAT>      Output format: pretty or json [default: pretty]",
  "  -r, --report <MODE>        Which results to report: all, immutable or mutable [default: all]",
  "      --summary              Print verdict counts after the results",
  "      --parallel             Analyse requested classes in parallel",
  "",
  "Options of init:",
  "  -o, --output <FILE>        Output file path [default: mutcheck.yaml]",
  "  -t, --template <NAME>      Template to use [default: minimal]",
  "  -l, --list                 List available templates",
  "",
  "Options:",
  "  -v, --verbose              Increase log verbosity",
  "  -h, --help                 Print help",
  "  -V, --version              Print version"].map (· ++ "\n"))

/-- The wording of a mistake in the arguments. -/
def Usage.complaint : Usage → String
  | help | version | nothingGiven => ""
  | missingCommand => "error: a subcommand is required but one was not provided\n"
  | unknownCommand => "error: unrecognized subcommand\n"
  | unknownArgument => "error: unexpected argument found\n"
  | missingArgument => "error: the required argument --classpath <PATH>... was not provided\n"
  | missingValue => "error: a value is required for an option but none was supplied\n"
  | needlessValue => "error: unexpected value for an option found; no more were expected\n"
  | repeated => "error: an option cannot be used multiple times\n"

end Immutability.CommandLine
