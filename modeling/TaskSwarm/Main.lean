/-
The program.

It reads its command line and plays the session on the machine it runs on.
-/
import TaskSwarm.CommandLine.Session
import TaskSwarm.CommandLine.Usage
import TaskSwarm.Live.Node

set_option autoImplicit false

namespace TaskSwarm

open CommandLine

/-- Says something on standard output. -/
def announce (a : Announcement) : IO Unit := do
  IO.print a.text
  (← IO.getStdout).flush

/-- Tells what has happened to a node, and adds it to the log that the node may keep. -/
def report (c : Configuration) (peer : PeerId) (e : NodeEvent) : IO Unit := do
  announce (.told peer e)
  match c.events.logDir with
  | none => return ()
  | some directory =>
    let entry : LogEntry := ⟨.ofMillis (← Live.now).toInt, peer, e⟩
    let _ ← Live.appendText (EventLog.path directory peer) entry.line
    return ()

/-- Does a deed of a session; the node is kept once there is one. -/
def act (node : IO.Ref (Option Live.LiveNode)) : (d : Deed) → IO d.Answer
  | .say a => announce a
  | .look path => Live.look path
  | .readText path => Live.readText path
  | .openFile directory path kept => Live.openFile directory path kept
  | .append path text => Live.appendText path text
  | .now => Live.now
  | .madeUpName => return ofToken (← Live.freshToken)
  | .startNode c peer wanted => do
    let n ← Live.LiveNode.new c peer (report c peer)
    node.set (some n)
    n.start wanted
  | .propose task => do
    match ← node.get with
    | some n => n.propose task
    | none => return .error .channelClosed
  | .wait => Live.interruption

end TaskSwarm

open TaskSwarm TaskSwarm.CommandLine in
/-- Carries out a command line; the number that the program ends with. -/
def main (words : List String) : IO UInt32 := do
  match parse words with
  | .error e =>
    if e.isQuestion then IO.println e.text else IO.eprintln e.text
    return e.exitCode.toUInt32
  | .ok invocation =>
    let (settings, data) ← Live.userDirectories
    let node ← IO.mkRef none
    match ← (session ⟨settings, data, .empty⟩ invocation).play (act node) with
    | .ok () => return 0
    | .error cause =>
      IO.eprintln cause.line
      return 1
