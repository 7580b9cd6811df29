/-
What the program says.
-/
import TaskSwarm.Configuration.Search
import TaskSwarm.Event.Basic

set_option autoImplicit false

namespace TaskSwarm.CommandLine

/-- Something the program says on standard output. -/
inductive Announcement
  | settings (c : Configuration)
  | listening (peer : PeerId) (address : SocketAddress)
  | created (id : String)
  | notCreated (error : SwarmError)
  | started (nodes : Nat)
  | proposed (peer : PeerId) (id : String)
  | told (node : PeerId) (event : NodeEvent)
  | timedOut (id : String)
  /-- The proposal a simulation was about, at its end. -/
  | record (p : Proposal)

/-- What is worth knowing about an event beside its kind and what it is about. -/
def eventDetail : NodeEvent → String
  | .proposalStateChanged _ origin target => origin.name ++ " → " ++ target.name
  | .proposalAccepted _ acceptedBy => s!"accepted by {acceptedBy}"
  | .taskStarted _ executor => s!"executor {executor}"
  | .taskCompleted _ result => result.render
  | .taskFailed _ error => error
  | .peerDisconnected _ attempts => s!"attempts {attempts}"
  | .reconnectFailed _ error => error
  | .fileReceived _ name bytes => s!"{name} ({bytes} bytes)"
  | _ => ""

/-- The line for an event of a node. -/
def eventLine (node : PeerId) (e : NodeEvent) : String :=
  let subject := (e.proposalId?.or e.peer?).getD ""
  s!"[{node}] {e.kind} {subject} " ++ eventDetail e

namespace Announcement

/-- The text, which ends with its last line. -/
def text : Announcement → String
  | settings c => Yaml.encode Configuration.codec c
  | listening peer address => s!"✓ {peer} listening on " ++ address.render ++ "\n"
  | created id => s!"✓ Created proposal {id}\n"
  | notCreated error => "✗ Proposal not created: " ++ error.message ++ "\n"
  | started nodes => s!"✓ Started {nodes} nodes\n"
  | proposed peer id => s!"→ {peer} proposed {id}\n"
  | told node event => eventLine node event ++ "\n"
  | timedOut id => s!"✗ Timed out waiting for proposal {id}\n"
  | record p => (Proposal.codec.encode p).renderIndented ++ "\n"

/-- The lines. -/
def lines (a : Announcement) : List String :=
  ((a.text.toList.splitOn '\n').dropLast).map String.ofList

end Announcement

end TaskSwarm.CommandLine
