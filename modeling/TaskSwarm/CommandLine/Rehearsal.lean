/-
A session without a machine.

The deeds of a session are done with a tree of files in memory, a clock that
stands still, and a node that can listen but reaches nobody. What was said and
how it ended is kept.
-/
import TaskSwarm.CommandLine.Session

set_option autoImplicit false

namespace TaskSwarm.CommandLine

/-! ## What was said -/

/-- A session that is over. -/
structure Transcript where
  /-- All that was said, in order. -/
  said : List Announcement
  /-- Why the session came to a halt, if it did. -/
  halt : Option Halt

namespace Transcript

/-- What the program ends with. -/
def exitCode (t : Transcript) : Nat := if t.halt.isSome then 1 else 0

/-- The lines on standard output. -/
def lines (t : Transcript) : List String := t.said.flatMap Announcement.lines

/-- The line on standard error. -/
def errorLine? (t : Transcript) : Option String := t.halt.map Halt.line

/-- The proposal that a simulation was about. -/
def record? (t : Transcript) : Option Proposal :=
  t.said.findSome? fun
    | .record p => some p
    | _ => none

/-- Whether a simulation ran out of time. -/
def hasTimedOut (t : Transcript) : Bool :=
  t.said.any fun
    | .timedOut _ => true
    | _ => false

end Transcript

/-! ## The stage -/

/-- Where a session is rehearsed. -/
structure Stage where
  files : Files
  time : Int64
  /-- A port nobody uses. -/
  freePort : UInt16
  /-- Whether a node may listen at an address. -/
  mayListen : SocketAddress → Bool
  /-- The node that was started, with its settings. -/
  node : Option (PeerId × Configuration)
  /-- What was said, the last first. -/
  said : List Announcement

namespace Stage

/-- Keeps files if there was no fault. -/
def change (s : Stage) : Except IoFault Files → Except IoFault Unit × Stage
  | .ok files => (.ok (), { s with files := files })
  | .error fault => (.error fault, s)

/-- Opens a file. -/
def openFile (s : Stage) (directory path : String) (kept : Bool) : Except IoFault Files := do
  let files ← s.files.makeDirectories directory
  if kept then files.append path .empty else files.write path .empty

/-- The address a node gets if it may listen. -/
def listen (s : Stage) (wanted : SocketAddress) : Except IoFault SocketAddress :=
  if !s.mayListen wanted then .error .addressUnavailable
  else .ok (if wanted.port = 0 then wanted.withPort s.freePort else wanted)

/-- The world of the node, in which its peers are there but cannot be reached. -/
def world (s : Stage) (peer : PeerId) (c : Configuration) : World :=
  let others := c.node.peers.keys.filter (· ≠ peer)
  let w := (World.empty s.time s.files).joinNode (c.member peer)
  let w := others.foldl (fun w p => w.joinAs p []) w
  { w with network := others.foldl (fun n p => n.setOnline p false) w.network }

/-- Has the node propose a task. -/
def propose (s : Stage) (task : TaskSpec) : Outcome String :=
  match s.node with
  | some (peer, c) => (proposeIn (s.world peer c) peer (c.settings peer) task).2
  | none => .error .channelClosed

/-- Does a deed. -/
def act : (d : Deed) → StateM Stage d.Answer
  | .say a => modify fun s => { s with said := a :: s.said }
  | .look path => return .ofFiles (← get).files path
  | .readText path => return (← get).files.readText path
  | .openFile directory path kept => modifyGet fun s => s.change (s.openFile directory path kept)
  | .append path text => modifyGet fun s => s.change (s.files.append path text.toUTF8)
  | .now => return (← get).time
  | .madeUpName => return ofToken (Identifier.token (← get).time.toInt.toNat)
  | .startNode c peer wanted => modifyGet fun s => (s.listen wanted, { s with node := some (peer, c) })
  | .propose task => return (← get).propose task
  | .wait => return ()

end Stage

/-- Plays a session through on a stage. -/
def rehearse (stage : Stage) (s : Session Unit) : Transcript :=
  match (s.play Stage.act).run stage with
  | (.ok _, stage) => ⟨stage.said.reverse, none⟩
  | (.error cause, stage) => ⟨stage.said.reverse, some cause⟩

end TaskSwarm.CommandLine
