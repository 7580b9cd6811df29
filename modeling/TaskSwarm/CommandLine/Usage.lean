/-
How the program is used.
-/
import TaskSwarm.CommandLine.Grammar

set_option autoImplicit false

namespace TaskSwarm.CommandLine

/-- The text for who asks for help. -/
def helpText : String :=
  String.intercalate "\n"
    ["Task coordination node for a peer-to-peer compute swarm",
     "",
     "Usage: sn [OPTIONS] [COMMAND]",
     "",
     "Commands:",
     "  run       Run one node on TCP until Ctrl-C",
     "              -t, --task <FILE>  Proposal config (YAML) to create once the node is up",
     "              --peer-id <PEER_ID>  Override node.peer-id from the config",
     "              --listen <LISTEN>  Override node.listen from the config",
     "  simulate  Run an in-process swarm and trace one proposal through it",
     "              -n, --nodes <NODES>  Number of nodes; node 0 proposes [default: 3]",
     "              --cpu-requirement <CPU>  CPU the proposal requires [default: 1]",
     "              --timeout-secs <SECS>  Give up waiting for a terminal state after this long [default: 30]",
     "  config    Print the effective configuration",
     "  help      Print this message",
     "",
     "Options:",
     "  -c, --config <CONFIG>        Path to config file",
     "  -l, --log-level <LOG_LEVEL>  Log level (TRACE, DEBUG, INFO, WARN, ERROR)",
     "      --stderr                 Log to stderr instead of the log file",
     "  -h, --help                   Print help",
     "  -V, --version                Print version"]

/-- The text for who asks for the version. -/
def versionText : String := "sn 0.1.0"

namespace UsageError

/-- Whether the command line only asked for a text. -/
def isQuestion : UsageError → Bool
  | displayHelp | displayVersion => true
  | _ => false

/-- What the program ends with. -/
def exitCode (e : UsageError) : Nat := if e.isQuestion then 0 else 2

/-- What is said. -/
def text : UsageError → String
  | displayHelp => helpText
  | displayVersion => versionText
  | unknownArgument => "error: unexpected argument found"
  | invalidSubcommand => "error: unrecognized subcommand"
  | invalidValue => "error: a value is required but none was supplied"
  | valueValidation => "error: invalid value"
  | argumentConflict => "error: the argument cannot be used multiple times"
  | tooManyValues => "error: unexpected value found"

end UsageError

end TaskSwarm.CommandLine
