import PayloadMapping.Command.Run

set_option autoImplicit false

/-!
# Help and dispatch

The pages of help, and what a list of arguments does.
-/

namespace PayloadMapping.Command

def HelpPage.text : HelpPage → String
  | .general =>
    "Declarative mapping of vendor travel payloads\n\n"
      ++ "Usage: tripmap <COMMAND>\n\n"
      ++ "Commands:\n"
      ++ "  transform  Transform one or more JSON payloads with a mapping\n"
      ++ "  check      Load a mapping and report its shape and actions\n"
      ++ "  help       Print this message or the help of the given subcommand(s)\n\n"
      ++ "Options:\n"
      ++ "  -h, --help     Print help\n"
      ++ "  -V, --version  Print version\n"
  | .transform =>
    "Transform one or more JSON payloads with a mapping\n\n"
      ++ "Usage: tripmap transform [OPTIONS] --mapping <MAPPING> <INPUTS>...\n\n"
      ++ "Arguments:\n"
      ++ "  <INPUTS>...  Input payload files (JSON)\n\n"
      ++ "Options:\n"
      ++ "  -m, --mapping <MAPPING>    Mapping file path (YAML or JSON)\n"
      ++ "  -o, --output <OUTPUT>      Output file path; stdout when omitted\n"
      ++ "      --config <CONFIG>      Attributes served under `$config`\n"
      ++ "      --instance <INSTANCE>  Attributes served under `$self` and other reserved scopes\n"
      ++ "      --strict               Fail on the first action error instead of writing null\n"
      ++ "      --report               Emit unique ids and diagnostics next to each document\n"
      ++ "  -h, --help                 Print help\n"
  | .check =>
    "Load a mapping and report its shape and actions\n\n"
      ++ "Usage: tripmap check <MAPPING>\n\n"
      ++ "Arguments:\n"
      ++ "  <MAPPING>  Mapping file path (YAML or JSON)\n\n"
      ++ "Options:\n"
      ++ "  -h, --help  Print help\n"
  | .help =>
    "Print this message or the help of the given subcommand(s)\n\n"
      ++ "Usage: tripmap help [COMMAND]...\n\n"
      ++ "Arguments:\n"
      ++ "  [COMMAND]...  Print help for the subcommand(s)\n"

def run (files : Files) (arguments : List String) : Outcome :=
  match Request.ofArguments arguments with
  | .help page => { printed := page.text }
  | .version => { printed := "tripmap 0.1.0\n" }
  | .transform request => transform files request
  | .check mapping => check files mapping
  | .invalid => { exit := 2 }

end PayloadMapping.Command
