/-! The texts about the program itself. -/
namespace ApiCompat.CommandLine

def versionText : String := "apicheck 0.1.0\n"

def introduction : String :=
  "Check a new API snapshot for compatibility with an old one\n\n" ++
  "Usage: apicheck [OPTIONS] [OLD] [NEW]\n\n"

def closing : String :=
  "\nExit status:\n" ++
  "  0  no error-severity diagnostics\n" ++
  "  1  at least one error-severity diagnostic\n" ++
  "  2  bad arguments or configuration\n" ++
  "  3  a snapshot could not be read or parsed\n\n" ++
  "Examples:\n" ++
  "  apicheck old.xml new.xml\n" ++
  "  apicheck -hide 23 -warning 7 old.xml new.xml\n" ++
  "  generate-api | apicheck old.xml -\n"

def shortDetails : String :=
  "Arguments:\n" ++
  "  [OLD]  Previously released API snapshot ('-' for stdin)\n" ++
  "  [NEW]  Candidate API snapshot ('-' for stdin)\n\n" ++
  "Options:\n" ++
  "      --error <CODE>     Report category CODE as an error (repeatable)\n" ++
  "      --warning <CODE>   Report category CODE as a warning (repeatable)\n" ++
  "      --hide <CODE>      Suppress category CODE (repeatable)\n" ++
  "      --format <FORMAT>  Report format (overrides config default) [possible values: text, json,\n" ++
  "                         table]\n" ++
  "      --config <PATH>    Configuration file (default: ./.apicheckrc.toml if present)\n" ++
  "      --no-color         Disable colored output\n" ++
  "      --compact          Minified JSON, borderless tables\n" ++
  "      --list-categories  Print the diagnostic categories and their severities, then exit\n" ++
  "  -v, --verbose          Enable verbose output (debug logging)\n" ++
  "  -q, --quiet            Suppress all output except errors\n" ++
  "  -h, --help             Print help (see more with '--help')\n" ++
  "  -V, --version          Print version\n"

def longDetails : String :=
  "Arguments:\n" ++
  "  [OLD]\n          Previously released API snapshot ('-' for stdin)\n\n" ++
  "  [NEW]\n          Candidate API snapshot ('-' for stdin)\n\n" ++
  "Options:\n" ++
  "      --error <CODE>\n          Report category CODE as an error (repeatable)\n\n" ++
  "      --warning <CODE>\n          Report category CODE as a warning (repeatable)\n\n" ++
  "      --hide <CODE>\n          Suppress category CODE (repeatable)\n\n" ++
  "      --format <FORMAT>\n          Report format (overrides config default)\n\n" ++
  "          Possible values:\n" ++
  "          - text:  One diagnostic per line on stderr (default)\n" ++
  "          - json:  JSON report on stdout\n" ++
  "          - table: Table on stdout\n\n" ++
  "      --config <PATH>\n          Configuration file (default: ./.apicheckrc.toml if present)\n\n" ++
  "      --no-color\n          Disable colored output\n\n" ++
  "      --compact\n          Minified JSON, borderless tables\n\n" ++
  "      --list-categories\n" ++
  "          Print the diagnostic categories and their severities, then exit\n\n" ++
  "  -v, --verbose\n          Enable verbose output (debug logging)\n\n" ++
  "  -q, --quiet\n          Suppress all output except errors\n\n" ++
  "  -h, --help\n          Print help (see a summary with '-h')\n\n" ++
  "  -V, --version\n          Print version\n"

def helpText (long : Bool) : String :=
  introduction ++ (if long then longDetails else shortDetails) ++ closing

end ApiCompat.CommandLine
