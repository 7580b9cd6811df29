/-
Options on a command line.

Words are read from left to right. An option is set when the next one begins, so
that a word in between is its value; whatever is wrong first is what is
complained about. Two dashes end the options, and nothing but options and the
name of a command may stand on the line.

`Level` says which options there are before a name, or after it. Every option
knows how it changes the settings `σ` of its level.
-/

set_option autoImplicit false

namespace TaskSwarm.CommandLine

/-- Why a command line is not carried out. -/
inductive UsageError
  /-- Help was asked for. -/
  | displayHelp
  /-- The version was asked for. -/
  | displayVersion
  | unknownArgument
  /-- A word where the name of a command should stand. -/
  | invalidSubcommand
  /-- An option without its value. -/
  | invalidValue
  /-- A value that is none for its option. -/
  | valueValidation
  /-- An option that was given before. -/
  | argumentConflict
  /-- A value for an option that takes none. -/
  | tooManyValues
  deriving DecidableEq, Repr

/-- What an option does. -/
inductive Action (σ : Type)
  /-- It takes a value, once. -/
  | store (isSet : σ → Bool) (put : String → σ → Except UsageError σ)
  /-- It takes none, and counts once. -/
  | flag (isSet : σ → Bool) (put : σ → σ)
  | help
  | version

/-- An option with its names. -/
structure OptionSpec (σ : Type) where
  long : String
  short : Option Char
  action : Action σ

/-- What may stand on one part of a command line. -/
structure Level (σ : Type) where
  options : List (OptionSpec σ)
  /-- The names of the commands that may follow. -/
  commands : List String

/-- What was read of a level so far. -/
structure Draft (σ : Type) where
  settings : σ
  /-- An option that takes a value, as it was given, with its value once that was read. -/
  pending : Option ((σ → Bool) × (String → σ → Except UsageError σ) × Option String)

namespace Draft

variable {σ : Type}

/-- Nothing read yet. -/
def start (settings : σ) : Draft σ := ⟨settings, none⟩

/-- Whether the next word is a value. -/
def awaitsValue (d : Draft σ) : Bool :=
  match d.pending with
  | some (_, _, none) => true
  | _ => false

/-- Sets an option to a value. -/
def put (isSet : σ → Bool) (put : String → σ → Except UsageError σ) (value : String) (s : σ) :
    Except UsageError σ :=
  if isSet s then .error .argumentConflict else put value s

/-- The settings, once the option that was read last is set. -/
def settle (d : Draft σ) : Except UsageError σ :=
  match d.pending with
  | none => .ok d.settings
  | some (_, _, none) => .error .invalidValue
  | some (isSet, store, some value) => put isSet store value d.settings

/-- An option without a value beside it. -/
def begin (d : Draft σ) (o : OptionSpec σ) : Except UsageError (Draft σ) := do
  let s ← d.settle
  match o.action with
  | .store isSet store => return ⟨s, some (isSet, store, none)⟩
  | .flag isSet set => if isSet s then throw .argumentConflict else return ⟨set s, none⟩
  | .help => throw .displayHelp
  | .version => throw .displayVersion

/-- An option with a value beside it. -/
def attach (d : Draft σ) (o : OptionSpec σ) (value : String) : Except UsageError (Draft σ) :=
  match o.action with
  | .store isSet store => do return ⟨← put isSet store value (← d.settle), none⟩
  | _ => .error .tooManyValues

/-- A word that is a value. -/
def supply (d : Draft σ) (value : String) : Draft σ :=
  { d with pending := d.pending.map fun (isSet, store, _) => (isSet, store, some value) }

end Draft

namespace Level

variable {σ : Type}

/-- The option of a long name. -/
def long? (l : Level σ) (name : String) : Option (OptionSpec σ) := l.options.find? (·.long = name)

/-- The option of a short name. -/
def short? (l : Level σ) (c : Char) : Option (OptionSpec σ) := l.options.find? (·.short = some c)

/-- A word after two dashes: a name, or a name and its value. -/
def readLong (l : Level σ) (word : List Char) (d : Draft σ) : Except UsageError (Draft σ) :=
  let name := word.takeWhile (· ≠ '=')
  match l.long? (String.ofList name), word.drop name.length with
  | none, _ => .error .unknownArgument
  | some o, [] => d.begin o
  | some o, _ :: value => d.attach o (String.ofList value)

/-- A value that stands right behind a short name, with or without an equals sign. -/
def besideShort : List Char → List Char
  | '=' :: value => value
  | value => value

/-- Letters after one dash. The first that takes a value takes all that follow. -/
def readShort (l : Level σ) : List Char → Draft σ → Except UsageError (Draft σ)
  | [], d => .ok d
  | c :: rest, d =>
    match l.short? c with
    | none => .error .unknownArgument
    | some o =>
      match o.action, rest with
      | .store .., _ :: _ => d.attach o (String.ofList (besideShort rest))
      | _, _ => do l.readShort rest (← d.begin o)

/-- What is wrong with a word that is neither an option nor a value. -/
def strayWord (l : Level σ) : UsageError :=
  if l.commands.isEmpty then .unknownArgument else .invalidSubcommand

/-- What is wrong with a word after the end of the options. -/
def trailingWord (l : Level σ) (word : String) : UsageError :=
  if l.commands.contains word then .unknownArgument else l.strayWord

/-- Where a level ends. -/
inductive Stop (σ : Type)
  | finished (d : Draft σ)
  /-- At the name of a command, before the words that follow it. -/
  | command (name : String) (rest : List String) (d : Draft σ)

/-- Reads the words of a level. -/
def read (l : Level σ) : List String → Draft σ → Except UsageError (Stop σ)
  | [], d => .ok (.finished d)
  | word :: rest, d =>
    -- The value of an option may look like the name of a command.
    if !d.awaitsValue && l.commands.contains word then .ok (.command word rest d)
    else
      match word.toList with
      | ['-', '-'] =>
        match rest with
        | [] => .ok (.finished d)
        | next :: _ => .error (l.trailingWord next)
      | '-' :: '-' :: name => do l.read rest (← l.readLong name d)
      | '-' :: c :: letters => do l.read rest (← l.readShort (c :: letters) d)
      | _ => if d.awaitsValue then l.read rest (d.supply word) else .error l.strayWord

end Level

end TaskSwarm.CommandLine
