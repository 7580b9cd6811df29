/-
Exchanges with peers.

An exchange is one request and its response, each in an envelope. What goes
wrong on the way and what the peer refuses come out as errors.
-/
import TaskSwarm.Node.Program
import TaskSwarm.Wire.FileFrame

set_option autoImplicit false

namespace TaskSwarm

/-- What a node is told about itself. -/
structure Settings where
  /-- Its own name. -/
  peer : PeerId
  /-- The longest time, in milliseconds, it waits before it claims a proposal. -/
  claimJitter : Nat
  /-- The time, in milliseconds, after which it gives a request up. -/
  requestTimeout : Nat
  /-- The directory for the files it is sent. -/
  inbox : String
  deriving DecidableEq, Repr

namespace Node

open TaskSwarm.Action (perform ofOutcome)

/-- The call that makes a request. -/
def requestCall {α : Type} (s : Settings) (peer : PeerId) (kind : MessageKind) (c : Codec α)
    (payload : α) (now : Int64) : Call where
  peer := peer
  protocol := Protocol.ofKind kind
  bytes := Wire.writeMessage Request.codec (.new kind c payload now)
  timeout := s.requestTimeout

/-- What a peer answered, given what its stream brought. -/
def readAnswer (peer : PeerId) (brought : Except CallFault ByteArray) : Outcome Json := do
  let bytes ← brought.mapError fun fault => fault.toError peer
  let response ← Wire.readFirst Response.codec bytes
  response.outcome peer

/-- Makes a request. -/
def request {α : Type} (s : Settings) (peer : PeerId) (kind : MessageKind) (c : Codec α)
    (payload : α) : Action Json := do
  let brought ← perform (.call (requestCall s peer kind c payload (← now)))
  ofOutcome (readAnswer peer brought)

/-- Makes the same request to every peer there is; the number of peers that served it. -/
def requestAll {α : Type} (s : Settings) (kind : MessageKind) (c : Codec α) (payload : α) :
    Action Nat := do
  let peers ← perform .knownPeers
  let now ← now
  let brought ← perform (.callAll (peers.map fun peer => requestCall s peer kind c payload now))
  let answers := (peers.zip brought).map fun (peer, b) => readAnswer peer b
  return (answers.filter Except.isOk).length

/-! ## Files -/

/-- Sends a file of a proposal to a peer, which has stored it when this is done. -/
def streamFile (s : Settings) (peer : PeerId) (id path : String) : Action Unit := do
  let some name := Path.fileName? path
    | throw (.invalidProposal (.badInputPath path))
  let bytes ← Action.ofIo (← perform (.readFile path))
  let frame := FileFrame.write ⟨FileFrame.joinName id name, bytes⟩
  let sent ← perform (.transfer ⟨peer, Protocol.file, frame.toOption.getD .empty, s.requestTimeout⟩)
  match sent with
  | .ok () => let _ ← ofOutcome frame
  | .error .transferTimedOut => do
    let _ ← ofOutcome frame
    throw (CallFault.transferTimedOut.toError peer)
  | .error fault => throw (fault.toError peer)

/-- Sends the files of a proposal one after the other, up to the first that fails. -/
def streamFiles (s : Settings) (peer : PeerId) (id : String) : List String → Action Unit
  | [] => return ()
  | path :: paths => do
    streamFile s peer id path
    streamFiles s peer id paths

/-- Stores a file that a peer sent; the path it got. -/
def receiveFile (s : Settings) (bytes : ByteArray) : Action String := do
  let frame ← ofOutcome (FileFrame.read bytes)
  let (id, name) ← ofOutcome (FileFrame.splitName frame.name)
  let directory := Path.join s.inbox id
  Action.ofIo (← perform (.makeDirectories directory))
  let path := Path.join directory name
  Action.ofIo (← perform (.writeFile path frame.body))
  emit (.fileReceived id name frame.body.size)
  return path

end Node

end TaskSwarm
