import ObjectStore.CommandLine.Arguments

/-!
# Usage

What is shown to somebody whose arguments are no command line, or who asks for help.
-/

namespace ObjectStore.CommandLine

/-- The name and the version of the program. -/
def programText : String := "object-store 0.1.0"

/-- How the program is used. -/
def usageText : String :=
  "\n".intercalate
    ["Usage: object-store [OPTIONS] <COMMAND>",
      "",
      "Commands:",
      "  ls <PATH> [-r] [--max-keys <N>]            List objects",
      "  get <PATH> [-o <FILE>]                     Download an object",
      "  put <FILE> <PATH> [--content-type <TYPE>]  Upload a file",
      "  rm <PATHS>... [-r]                         Remove objects",
      "  stat <PATH>                                Show object info",
      "",
      "Paths have the form s3://bucket/key.",
      "",
      "Options:",
      "  --config <FILE>      Config file path",
      "  --profile <NAME>     Profile to use from config",
      "  --log-level <LEVEL>  Log level (error, warn, info, debug, trace)",
      "  -h, --help           Print help",
      "  -V, --version        Print version"]

namespace UsageError

/-- Whether something was asked for that is shown, so that nothing is wrong. -/
def isAnswer : UsageError → Bool
  | .help | .version => true
  | _ => false

/-- What is wrong with the arguments. -/
def complaint : UsageError → Option String
  | .help | .version | .nothingGiven => none
  | .missingCommand => some "a command is required"
  | .unknownCommand => some "there is no such command"
  | .unknownArgument => some "there is no place for an argument"
  | .missingArgument => some "a required argument is missing"
  | .noValue => some "an option has no value"
  | .badValue => some "the value of an option is not a number below 4294967296"
  | .unwantedValue => some "an option that takes no value has one"
  | .repeated => some "an option is given twice"

/-- What is shown. -/
def text : UsageError → String
  | .version => programText ++ "\n"
  | e =>
      match e.complaint with
      | none => usageText ++ "\n"
      | some complaint => "error: " ++ complaint ++ "\n\n" ++ usageText ++ "\n"

end UsageError

end ObjectStore.CommandLine
