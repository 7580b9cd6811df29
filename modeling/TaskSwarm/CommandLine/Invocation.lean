/-
What the program is told to do.

There are three commands, and options that may stand before a command or after
it; of an option given in both places the one after the command counts. Without
a command the settings are shown.
-/
import TaskSwarm.CommandLine.Grammar
import TaskSwarm.Wire.Address

set_option autoImplicit false

namespace TaskSwarm.CommandLine

/-! ## Commands -/

/-- What may be asked of the program. -/
inductive Command
  /-- Run a node, under a name and an address other than the settings say, and with a task to propose. -/
  | run (task peer : Option String) (listen : Option SocketAddress)
  /-- Run a swarm of nodes and follow one proposal through it. -/
  | simulate (nodes : Nat) (cpu : Float) (timeoutSeconds : Nat)
  /-- Show the settings. -/
  | config
  deriving DecidableEq

/-- The options of all commands. -/
structure Globals where
  /-- A file with settings. -/
  config : Option String
  logLevel : Option String
  /-- Whether the log goes to standard error. -/
  stderr : Bool
  deriving DecidableEq, Repr

/-- A command line that makes sense. -/
structure Invocation where
  globals : Globals
  command : Option Command
  deriving DecidableEq

namespace Globals

/-- No option. -/
def none : Globals := ⟨.none, .none, false⟩

/-- Options before a command, and those after it. -/
def merge (before after : Globals) : Globals where
  config := after.config.or before.config
  logLevel := after.logLevel.or before.logLevel
  stderr := after.stderr || before.stderr

end Globals

/-! ## Values -/

/-- The value of a word for a path, which is not empty. -/
def readPath (word : String) : Except UsageError String :=
  if word.isEmpty then .error .invalidValue else .ok word

/-- The value of a word for a count of 64 bits. -/
def readCount (word : String) : Except UsageError Nat :=
  let digits := match word.toList with
    | '+' :: ds => ds
    | ds => ds
  if digits.isEmpty || !digits.all Char.isDigit then .error .valueValidation
  else
    let n := Decimal.natOfDigits digits
    if n < 0x10000000000000000 then .ok n else .error .valueValidation

/-- The doubles that are written as words. -/
def namedFloat? (word : List Char) : Option Float :=
  match (String.ofList word).toLower with
  | "inf" | "infinity" => some (1.0 / 0.0)
  | "nan" => some (0.0 / 0.0)
  | _ => none

/-- The value of a word for a double. -/
def readFloat (word : String) : Except UsageError Float :=
  let (negative, rest) := Decimal.dropSign word.toList
  match namedFloat? rest, Decimal.readFloat? word with
  | some x, _ => .ok (if negative then -x else x)
  | .none, some x => .ok x
  | .none, .none => .error .valueValidation

/-- The value of a word for an address. -/
def readAddress (word : String) : Except UsageError SocketAddress :=
  match SocketAddress.ofString? word with
  | some a => .ok a
  | .none => .error .valueValidation

/-! ## Options -/

/-- An option that keeps what `read` makes of its value. -/
def keep {σ α : Type} (get : σ → Option α) (set : α → σ → σ) (read : String → Except UsageError α) :
    Action σ :=
  .store (fun s => (get s).isSome) fun word s => (read word).map fun a => set a s

/-- A word as it stands. -/
def readText (word : String) : Except UsageError String := .ok word

/-- The settings of a level: the options of all commands, and its own. -/
structure Given (α : Type) where
  globals : Globals
  own : α

namespace Given

variable {α : Type}

/-- The options that every level has. -/
def options : List (OptionSpec (Given α)) :=
  [⟨"config", some 'c',
     keep (·.globals.config) (fun path g => { g with globals := { g.globals with config := some path } })
       readPath⟩,
   ⟨"log-level", some 'l',
     keep (·.globals.logLevel)
       (fun level g => { g with globals := { g.globals with logLevel := some level } }) readText⟩,
   ⟨"stderr", .none,
     .flag (·.globals.stderr) fun g => { g with globals := { g.globals with stderr := true } }⟩,
   ⟨"help", some 'h', .help⟩]

/-- A level that no command follows. -/
def level (own : List (OptionSpec (Given α))) : Level (Given α) := ⟨own ++ options, []⟩

end Given

/-- An option of a level's own. -/
def OptionSpec.own {α β : Type} (long : String) (short : Option Char) (get : α → Option β)
    (set : β → α → α) (read : String → Except UsageError β) : OptionSpec (Given α) :=
  ⟨long, short, keep (fun g => get g.own) (fun b g => { g with own := set b g.own }) read⟩

/-- The options for running a node. -/
structure RunOptions where
  task : Option String
  peer : Option String
  listen : Option SocketAddress

/-- The options for a simulation. -/
structure SimulateOptions where
  nodes : Option Nat
  cpu : Option Float
  timeoutSeconds : Option Nat

namespace RunOptions

/-- What may follow the command. -/
def level : Level (Given RunOptions) :=
  Given.level
    [.own "task" (some 't') task (fun v s => { s with task := some v }) readPath,
     .own "peer-id" .none peer (fun v s => { s with peer := some v }) readText,
     .own "listen" .none listen (fun v s => { s with listen := some v }) readAddress]

/-- The command. -/
def command (s : RunOptions) : Command := .run s.task s.peer s.listen

end RunOptions

namespace SimulateOptions

/-- What may follow the command. -/
def level : Level (Given SimulateOptions) :=
  Given.level
    [.own "nodes" (some 'n') nodes (fun v s => { s with nodes := some v }) readCount,
     .own "cpu-requirement" .none cpu (fun v s => { s with cpu := some v }) readFloat,
     .own "timeout-secs" .none timeoutSeconds (fun v s => { s with timeoutSeconds := some v }) readCount]

/-- The command. -/
def command (s : SimulateOptions) : Command :=
  .simulate (s.nodes.getD 3) (s.cpu.getD 1.0) (s.timeoutSeconds.getD 30)

end SimulateOptions

/-! ## Command lines -/

/-- The names of the commands, and of the one for help. -/
def commandNames : List String := ["run", "simulate", "config", "help"]

/-- What may stand before a command. -/
def outerLevel : Level (Given Unit) :=
  ⟨Given.options ++ [⟨"version", some 'V', .version⟩], commandNames⟩

/-- Reads what follows a command. -/
def readCommand {α : Type} (level : Level (Given α)) (start : α) (command : α → Command)
    (words : List String) : Except UsageError (Globals × Command) := do
  match ← level.read words (.start ⟨.none, start⟩) with
  | .finished d | .command _ _ d => do
    let g ← d.settle
    return (g.globals, command g.own)

/-- What asking for help ends with; the words after it may name one command. -/
def helpOutcome : List String → UsageError
  | [] => .displayHelp
  | [name] => if commandNames.contains name then .displayHelp else .invalidSubcommand
  | _ => .invalidSubcommand

/-- Reads a command and what follows it. -/
def dispatch (name : String) (words : List String) : Except UsageError (Globals × Command) :=
  match name with
  | "run" => readCommand RunOptions.level ⟨.none, .none, .none⟩ RunOptions.command words
  | "simulate" => readCommand SimulateOptions.level ⟨.none, .none, .none⟩ SimulateOptions.command words
  | "config" => readCommand (Given.level []) () (fun _ => .config) words
  | _ => .error (helpOutcome words)

/-- Reads a command line, without the name of the program. -/
def parse (words : List String) : Except UsageError Invocation := do
  match ← outerLevel.read words (.start ⟨.none, ()⟩) with
  | .finished d => do
    let g ← d.settle
    return ⟨g.globals, .none⟩
  | .command name rest d => do
    let (inner, command) ← dispatch name rest
    let outer ← d.settle
    return ⟨outer.globals.merge inner, some command⟩

end TaskSwarm.CommandLine
