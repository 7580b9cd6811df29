/-
Where settings come from.

A file that is named has to be there and make sense. Otherwise a file of the
directory and then one of the user are tried, and one that cannot be used is
passed over; without any the defaults hold.

The level of logging is wanted before all else, when complaints cannot be
logged yet, and is looked for separately.
-/
import TaskSwarm.Configuration.Basic
import TaskSwarm.Files.Tree
import TaskSwarm.Yaml.Printer
import TaskSwarm.Yaml.Tree

set_option autoImplicit false

namespace TaskSwarm

/-! ## Settings as text -/

namespace Yaml

/-- Reads a text as a record. -/
def decode? {α : Type} (c : Codec α) (text : String) : Option α := do
  let tree ← read? text.toList
  (c.decode .configuration tree).toOption

/-- The text of a record. -/
def encode {α : Type} (c : Codec α) (a : α) : String := render (c.encode a)

end Yaml

/-! ## Files with settings -/

/-- What stands under a path where settings may be. -/
inductive Candidate
  | missing
  /-- Something that is no file with a text. -/
  | unreadable
  | text (content : String)
  deriving DecidableEq, Repr

namespace Candidate

/-- Whether there is anything. -/
def isPresent : Candidate → Bool
  | missing => false
  | _ => true

/-- What stands under a path of a tree of files. -/
def ofFiles (fs : Files) (path : String) : Candidate :=
  match fs.readText path with
  | .ok content => .text content
  | .error _ => if fs.contains path then .unreadable else .missing

end Candidate

/-- Why a file holds no settings. -/
inductive SettingsFault
  | unreadable
  | malformed
  deriving DecidableEq, Repr

/-- The wording of each cause. -/
def SettingsFault.message : SettingsFault → String
  | .unreadable => "Failed to read config file"
  | .malformed => "Failed to parse config file"

/-- A named file without settings. -/
structure LoadFault where
  path : String
  cause : SettingsFault
  deriving DecidableEq, Repr

namespace LoadFault

/-- The wording without the cause. -/
def summary (e : LoadFault) : String := s!"Failed to load config from {e.path}"

/-- The wording. -/
def message (e : LoadFault) : String := e.summary ++ ": " ++ e.cause.message

end LoadFault

namespace Configuration

/-- The settings a file holds. -/
def ofCandidate : Candidate → Except SettingsFault Configuration
  | .missing | .unreadable => .error .unreadable
  | .text content =>
    match Yaml.decode? codec content with
    | some c => .ok c
    | none => .error .malformed

/-- The file with settings in the directory where a node runs. -/
def localPath : String := ".swarmnode.yml"

/-- The file with settings of a user, given the directory where a user keeps them. -/
def userPath (directory : String) : String :=
  Path.join (Path.join directory "swarmnode") "swarmnode.yml"

/-- The files that are tried if none is named. -/
def searchPath (userDirectory : Option String) : List String :=
  localPath :: (userDirectory.map userPath).toList

/-- The settings of the first file that has some. -/
def firstOf (look : String → Candidate) (paths : List String) : Option Configuration :=
  paths.findSome? fun path =>
    if (look path).isPresent then (ofCandidate (look path)).toOption else none

/-- The settings of a node, given what stands under each path. -/
def load (look : String → Candidate) (userDirectory named : Option String) :
    Except LoadFault Configuration :=
  match named with
  | some path => (ofCandidate (look path)).mapError fun cause => ⟨path, cause⟩
  | none => .ok ((firstOf look (searchPath userDirectory)).getD default)

/-- The files that may say how much is logged. -/
def logLevelPaths (userDirectory named : Option String) : List String :=
  match named with
  | some path => [path]
  | none => searchPath userDirectory

/-- How much is logged, according to the files. -/
def loadLogLevel (look : String → Candidate) (userDirectory named : Option String) : Option String :=
  let present := (logLevelPaths userDirectory named).filter fun path => (look path).isPresent
  (present.findSome? fun path => (ofCandidate (look path)).toOption).bind logLevel

end Configuration

end TaskSwarm
