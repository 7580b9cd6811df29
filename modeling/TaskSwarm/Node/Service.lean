/-
What a node answers.

Each request protocol takes one request and writes one response, whatever goes
wrong. The file protocol takes one file and closes the stream without a word.
-/
import TaskSwarm.Message.Inbound
import TaskSwarm.Node.Executor
import TaskSwarm.Node.Proposer

set_option autoImplicit false

namespace TaskSwarm.Node

open TaskSwarm.Action (perform ofOutcome)

/-- What a node does about a request, and what it answers. -/
def handle (s : Settings) (sender : PeerId) : Inbound → Action Json
  | .proposal p => handleProposal s sender p
  | .acceptance payload => handleAcceptance s payload
  | .status payload => handleStatus sender payload
  | .lock request => do
    let a ← handleLock request
    return (LockAnswer.codec.encode a).canonical
  | .unlock request => do
    let a ← handleUnlock request
    return (UnlockAnswer.codec.encode a).canonical
  | .result payload => handleResult sender payload
  | .cancellation payload => handleCancellation sender payload

/-- What a request on the protocol of a kind comes to. -/
def serveRequest (s : Settings) (sender : PeerId) (expected : MessageKind) (bytes : ByteArray) :
    Action Json := do
  handle s sender (← ofOutcome (Inbound.ofBytes expected bytes))

/-- The bytes a node writes for a request. -/
def respond (s : Settings) (sender : PeerId) (expected : MessageKind) (bytes : ByteArray) :
    Program ByteArray := do
  let result ← (serveRequest s sender expected bytes).run
  let now ← Program.perform .now
  return Wire.writeMessage Response.codec (.ofOutcome now result)

/-- The bytes a node writes on a stream that it is handed; nothing if it does not know the protocol. -/
def serve (s : Settings) (sender : PeerId) (protocol : String) (bytes : ByteArray) :
    Option (Program ByteArray) :=
  match Protocol.kind? protocol with
  | some kind => some (respond s sender kind bytes)
  | none =>
    if protocol = Protocol.file then
      some do
        let _ ← (receiveFile s bytes).run
        return .empty
    else none

/-- The protocols a node knows. -/
def protocols : List String := Protocol.requestKinds.map Protocol.ofKind ++ [Protocol.file]

/-- What a job does. -/
def runJob (s : Settings) : Job → Program Unit
  | .claim id delay => do
    Program.perform (.sleep delay)
    let _ ← (attempt s id).run
    return ()
  | .run p => do
    let _ ← (startTask s p).run
    return ()

/-! ## Questions about a node -/

/-- How a task is doing, as its proposer or executor knows. -/
structure TaskStatus where
  state : TaskState
  acceptedBy : Option PeerId
  result : Option Json
  progress : Option Json
  deriving DecidableEq

/-- How a task is doing. -/
def taskStatus (id : String) : Action TaskStatus := do
  let p ← requireProposal id
  return ⟨p.state, p.acceptedBy, p.result, p.progress⟩

end TaskSwarm.Node
