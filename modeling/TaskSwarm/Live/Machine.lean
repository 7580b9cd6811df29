/-
The machine a node runs on.

Clock, chance and files, with what the system refuses put in the words of the
library.
-/
import Std.Time
import TaskSwarm.Configuration.Search
import TaskSwarm.Task.Identifier

set_option autoImplicit false

namespace TaskSwarm.Live

/-! ## Refusals -/

/-- The number and the words of what the system refused. -/
def refusal? : IO.Error → Option (UInt32 × String)
  | .alreadyExists _ n s | .otherError n s | .resourceBusy n s | .resourceVanished n s
  | .unsupportedOperation n s | .hardwareFault n s | .unsatisfiedConstraints n s
  | .illegalOperation n s | .protocolError n s | .timeExpired n s | .interrupted _ n s
  | .noFileOrDirectory _ n s | .invalidArgument _ n s | .permissionDenied _ n s
  | .resourceExhausted _ n s | .inappropriateType _ n s | .noSuchThing _ n s => some (n, s)
  | .unexpectedEof | .userError _ => none

/-- The number of a refusal, which sockets give with a minus sign. -/
def refusalNumber (n : UInt32) : Nat := n.toInt32.toInt.natAbs

/-- What the system refused. -/
def faultOf (e : IO.Error) : IoFault :=
  match refusal? e with
  | none => .other e.toString
  | some (n, text) =>
    let number := refusalNumber n
    (IoFault.ofNumber? number).getD (.other s!"{text} (os error {number})")

/-- What came of a request to the system. -/
def attempt {α : Type} (request : IO α) : IO (Except IoFault α) := do
  match ← request.toBaseIO with
  | .ok a => return .ok a
  | .error e => return .error (faultOf e)

/-! ## Clock and chance -/

/-- The time in milliseconds. -/
def now : IO Int64 := do
  return Int64.ofInt (← Std.Time.Timestamp.now).toMillisecondsSinceUnixEpoch.toInt

/-- A number nobody can guess. -/
def chance : IO Nat := do
  let bytes ← IO.getRandomBytes 8
  return bytes.toList.foldl (fun n b => n * 256 + b.toNat) 0

/-- An id no proposal has. -/
def freshId : IO String := do
  return Identifier.ofTime (← now).toInt.toNat ((← chance) % 0x10000000)

/-- A token no lock has. -/
def freshToken : IO String := do
  return String.ofList (Text.hexDigits 16 (← chance) ++ Text.hexDigits 16 (← chance))

/-! ## Files -/

/-- The text of a file. -/
def readText (path : String) : IO (Except IoFault String) := do
  match ← attempt (IO.FS.readBinFile path) with
  | .error fault => return .error fault
  | .ok bytes =>
    match Text.decode bytes with
    | .ok text => return .ok text
    | .error _ => return .error .notTextFile

/-- What stands under a path where settings may be. -/
def look (path : String) : IO Candidate := do
  match ← readText path with
  | .ok text => return .text text
  | .error .notFound => return .missing
  | .error _ => return .unreadable

/-- Makes a directory and a file in it; what the file held is kept or not. -/
def openFile (directory path : String) (kept : Bool) : IO (Except IoFault Unit) :=
  attempt do
    IO.FS.createDirAll directory
    IO.FS.withFile path (if kept then .append else .write) fun _ => return ()

/-- Adds a text to the end of a file. -/
def appendText (path text : String) : IO (Except IoFault Unit) :=
  attempt (IO.FS.withFile path .append fun h => h.putStr text)

/-- The directories of a user, by what the environment says: where settings are kept, and data. -/
def userDirectories : IO (Option String × String) := do
  let home ← IO.getEnv "HOME"
  let settings := (← IO.getEnv "XDG_CONFIG_HOME").or (home.map fun h => Path.join h ".config")
  let data := (← IO.getEnv "XDG_DATA_HOME").or (home.map fun h => Path.join h ".local/share")
  return (settings, data.getD ".")

end TaskSwarm.Live
