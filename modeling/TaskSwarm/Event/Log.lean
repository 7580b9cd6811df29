/-
Event logs.

A node keeps its events in a file of its own, one entry a line. Entries are only
ever added at the end. A reader passes over lines it cannot make sense of, so
damage to one line costs that line alone.
-/
import TaskSwarm.Event.Basic
import TaskSwarm.Event.Moment
import TaskSwarm.Files.Tree
import TaskSwarm.Json.Printer

set_option autoImplicit false

namespace TaskSwarm

/-- An event with its time and its node. -/
structure LogEntry where
  time : Moment
  node : PeerId
  event : NodeEvent
  deriving DecidableEq

namespace LogEntry

/-- How entries are written. -/
def codec : Codec LogEntry :=
  Fields.codec
    (.cons (.required "ts" Moment.codec) <|
     .cons (.required "node" .string) <|
     .cons (.required "event" NodeEvent.codec) .nil)
    "EventLogEntry"
    (fun (time, node, event, ()) => ⟨time, node, event⟩)
    (fun e => (e.time, e.node, e.event, ()))

/-- The line of an entry. -/
def line (e : LogEntry) : String := (codec.encode e).render ++ "\n"

end LogEntry

namespace EventLog

/-- The file of a node's events in a directory. -/
def path (directory : String) (node : PeerId) : String := Path.join directory s!"{node}.events.jsonl"

/-- Opens the log of a node: its directory and its file are there afterwards. -/
def create (fs : Files) (directory : String) (node : PeerId) : Except IoFault Files := do
  let fs ← fs.makeDirectories directory
  fs.append (path directory node) .empty

/-- Adds an entry. -/
def write (fs : Files) (directory : String) (e : LogEntry) : Except IoFault Files :=
  fs.append (path directory e.node) e.line.toUTF8

/-- The lines of a text without their ends. -/
def lines (text : String) : List String :=
  let pieces := text.toList.splitOn '\n'
  let pieces := if pieces.getLast? = some [] then pieces.dropLast else pieces
  pieces.map fun cs => String.ofList (if cs.getLast? = some '\r' then cs.dropLast else cs)

/-- The entry of a line. -/
def entry? (line : String) : Option LogEntry :=
  if Text.isBlankText line then none else (LogEntry.codec.ofChars line.toList).toOption

/-- The entries of a text. -/
def entries (text : String) : List LogEntry := (lines text).filterMap entry?

/-- The entries of the log of a node; none if there is no log. -/
def read (fs : Files) (directory : String) (node : PeerId) : Except IoFault (List LogEntry) :=
  if fs.contains (path directory node) then (fs.readText (path directory node)).map entries else .ok []

end EventLog

end TaskSwarm
