/-
Events.

Everything that can be observed about a node: what happens to proposals, what
its executor does, and which peers come and go.
-/
import TaskSwarm.Document.Variant
import TaskSwarm.Peer.Record
import TaskSwarm.Task.Proposal

set_option autoImplicit false

namespace TaskSwarm

/-- Something that happened on a node. -/
inductive NodeEvent
  | proposalCreated (id : String) (proposal : Proposal)
  | proposalReceived (id : String) (sender : PeerId) (proposal : Proposal)
  | proposalStateChanged (id : String) (origin target : TaskState)
  | proposalAccepted (id : String) (acceptedBy : PeerId)
  | proposalCancelled (id : String)
  | taskStarted (id : String) (executor : PeerId)
  | taskStatusUpdated (id : String) (status : TaskState) (progress : Option Json)
  | taskCompleted (id : String) (result : Json)
  | taskFailed (id error : String)
  | fileReceived (id fileName : String) (bytes : Nat)
  | peerConnected (peer : PeerId) (connection : PeerConnection)
  | peerDisconnected (peer : PeerId) (attempts : Nat)
  | heartbeat (peer : PeerId) (metrics : PeerMetrics)
  | reconnectFailed (peer : PeerId) (error : String)
  deriving DecidableEq

namespace NodeEvent

/-- The kinds of events and how each is written. -/
def variants : List (Variant NodeEvent) :=
  let id : RecordField String := .required "proposal_id" .string
  let peer : RecordField String := .required "peer_id" .string
  let family := "NodeEvent"
  [.of family "proposalCreated"
      (.cons id <| .cons (.required "proposal" Proposal.codec) .nil)
      (fun (id, p, ()) => .proposalCreated id p)
      (fun | .proposalCreated id p => some (id, p, ()) | _ => none),
   .of family "proposalReceived"
      (.cons id <| .cons (.required "from" .string) <| .cons (.required "proposal" Proposal.codec) .nil)
      (fun (id, sender, p, ()) => .proposalReceived id sender p)
      (fun | .proposalReceived id sender p => some (id, sender, p, ()) | _ => none),
   .of family "proposalStateChanged"
      (.cons id <| .cons (.required "from" TaskState.codec) <| .cons (.required "to" TaskState.codec) .nil)
      (fun (id, origin, target, ()) => .proposalStateChanged id origin target)
      (fun | .proposalStateChanged id origin target => some (id, origin, target, ()) | _ => none),
   .of family "proposalAccepted"
      (.cons id <| .cons (.required "accepted_by" .string) .nil)
      (fun (id, acceptedBy, ()) => .proposalAccepted id acceptedBy)
      (fun | .proposalAccepted id acceptedBy => some (id, acceptedBy, ()) | _ => none),
   .of family "proposalCancelled"
      (.cons id .nil)
      (fun (id, ()) => .proposalCancelled id)
      (fun | .proposalCancelled id => some (id, ()) | _ => none),
   .of family "taskStarted"
      (.cons id <| .cons (.required "executor_id" .string) .nil)
      (fun (id, executor, ()) => .taskStarted id executor)
      (fun | .taskStarted id executor => some (id, executor, ()) | _ => none),
   .of family "taskStatusUpdated"
      (.cons (.required "task_id" .string) <| .cons (.required "status" TaskState.codec) <|
       .cons (.optional "progress" .json) .nil)
      (fun (id, status, progress, ()) => .taskStatusUpdated id status progress)
      (fun | .taskStatusUpdated id status progress => some (id, status, progress, ()) | _ => none),
   .of family "taskCompleted"
      (.cons id <| .cons (.required "result" .json) .nil)
      (fun (id, result, ()) => .taskCompleted id result)
      (fun | .taskCompleted id result => some (id, result, ()) | _ => none),
   .of family "taskFailed"
      (.cons id <| .cons (.required "error" .string) .nil)
      (fun (id, error, ()) => .taskFailed id error)
      (fun | .taskFailed id error => some (id, error, ()) | _ => none),
   .of family "fileReceived"
      (.cons id <| .cons (.required "file_name" .string) <| .cons (.required "bytes" .size) .nil)
      (fun (id, name, bytes, ()) => .fileReceived id name bytes)
      (fun | .fileReceived id name bytes => some (id, name, bytes, ()) | _ => none),
   .of family "peerConnected"
      (.cons peer <| .cons (.required "connection" PeerConnection.codec) .nil)
      (fun (peer, connection, ()) => .peerConnected peer connection)
      (fun | .peerConnected peer connection => some (peer, connection, ()) | _ => none),
   .of family "peerDisconnected"
      (.cons peer <| .cons (.required "attempts" .nat32) .nil)
      (fun (peer, attempts, ()) => .peerDisconnected peer attempts)
      (fun | .peerDisconnected peer attempts => some (peer, attempts, ()) | _ => none),
   .of family "heartbeat"
      (.cons peer <| .cons (.required "metrics" PeerMetrics.codec) .nil)
      (fun (peer, metrics, ()) => .heartbeat peer metrics)
      (fun | .heartbeat peer metrics => some (peer, metrics, ()) | _ => none),
   .of family "reconnectFailed"
      (.cons peer <| .cons (.required "error" .string) .nil)
      (fun (peer, error, ()) => .reconnectFailed peer error)
      (fun | .reconnectFailed peer error => some (peer, error, ()) | _ => none)]

/-- How events are written. -/
def codec : Codec NodeEvent := Variant.codec "NodeEvent" "type" variants

/-- The kind of an event. -/
def kind : NodeEvent → String
  | proposalCreated .. => "proposalCreated"
  | proposalReceived .. => "proposalReceived"
  | proposalStateChanged .. => "proposalStateChanged"
  | proposalAccepted .. => "proposalAccepted"
  | proposalCancelled .. => "proposalCancelled"
  | taskStarted .. => "taskStarted"
  | taskStatusUpdated .. => "taskStatusUpdated"
  | taskCompleted .. => "taskCompleted"
  | taskFailed .. => "taskFailed"
  | fileReceived .. => "fileReceived"
  | peerConnected .. => "peerConnected"
  | peerDisconnected .. => "peerDisconnected"
  | heartbeat .. => "heartbeat"
  | reconnectFailed .. => "reconnectFailed"

/-- The proposal an event is about. -/
def proposalId? : NodeEvent → Option String
  | proposalCreated id _ | proposalReceived id _ _ | proposalStateChanged id _ _
  | proposalAccepted id _ | proposalCancelled id | taskStarted id _ | taskStatusUpdated id _ _
  | taskCompleted id _ | taskFailed id _ | fileReceived id _ _ => some id
  | _ => none

/-- The peer an event is about. -/
def peer? : NodeEvent → Option PeerId
  | peerConnected peer _ | peerDisconnected peer _ | heartbeat peer _ | reconnectFailed peer _ => some peer
  | _ => none

end NodeEvent

end TaskSwarm
