/-
What a request asks.

A request is an envelope with a payload; what it asks of a node is the payload
read as its kind demands. A request is only taken on the protocol of its kind.
-/
import TaskSwarm.Wire.Line

set_option autoImplicit false

namespace TaskSwarm

/-- What a node is asked by a peer. -/
inductive Inbound
  | proposal (proposal : Proposal)
  | acceptance (payload : Acceptance)
  | status (payload : StatusUpdate)
  | lock (request : LockRequest)
  | unlock (request : UnlockRequest)
  | result (payload : TaskResult)
  | cancellation (payload : Cancellation)
  deriving DecidableEq

namespace Inbound

/-- What a request asks. -/
def ofRequest (r : Request) : Outcome Inbound :=
  match r.kind with
  | .proposal => (Proposal.codec.read r.payload).map .proposal
  | .acceptance => (Acceptance.codec.read r.payload).map .acceptance
  | .status => (StatusUpdate.codec.read r.payload).map .status
  | .lock => (LockRequest.codec.read r.payload).map .lock
  | .unlock => (UnlockRequest.codec.read r.payload).map .unlock
  | .result => (TaskResult.codec.read r.payload).map .result
  | .cancellation => (Cancellation.codec.read r.payload).map .cancellation

/-- What the bytes on the protocol of a kind ask. -/
def ofBytes (expected : MessageKind) (bytes : ByteArray) : Outcome Inbound := do
  let r ← Wire.readFirst Request.codec bytes
  if r.kind ≠ expected then .error (.protocol (.other ("Unexpected message type " ++ r.kind.title)))
  else ofRequest r

end Inbound

end TaskSwarm
