/-
Why a request to a node fails.

Each cause is a constructor; `message` words it for people and `wireMessage`
for the peer that asked, which is told less: a peer learns neither that the
fault was one of protocol nor the id it already knows.
-/
import TaskSwarm.Document.Error
import TaskSwarm.Files.Fault
import TaskSwarm.Task.Identifier
import TaskSwarm.Task.State

set_option autoImplicit false

namespace TaskSwarm

/-! ## Refused locks -/

/-- Why a proposer does not grant a lock. -/
inductive LockDenial
  | notFound | selfClaim | alreadyLocked | notAvailable
  deriving DecidableEq, Repr

namespace LockDenial

/-- All denials. -/
def all : List LockDenial := [notFound, selfClaim, alreadyLocked, notAvailable]

/-- The wording of a denial, which travels to the peer that asked. -/
def message : LockDenial → String
  | notFound => "Proposal not found"
  | selfClaim => "Proposer cannot lock their own task"
  | alreadyLocked => "Task is locked"
  | notAvailable => "Task is not available"

/-- The denial that a peer worded so. -/
def ofReason? (reason : String) : Option LockDenial := all.find? fun d => d.message = reason

theorem ofReason?_message (d : LockDenial) : ofReason? d.message = some d := by
  cases d <;> decide

end LockDenial

/-! ## Broken rules of the protocol -/

/-- How a peer, or what it sent, broke the rules. -/
inductive ProtocolFault
  | decode (fault : DecodeError)
  | noData
  | messageTooLarge (bytes : Nat)
  | frameTooLarge (bytes : Nat)
  /-- A file frame without the NUL after its name. -/
  | noSeparator
  | nameNotText
  /-- A name that cannot be sent in a file frame. -/
  | unsendableName (name : String)
  /-- A name of a received file that does not say where the file belongs. -/
  | unsafeName (name : String)
  | lockMissing
  | notProposer
  | notCanceller
  | notExecutor (peer id : String)
  | notSupported (protocol : String)
  | other (text : String)
  deriving DecidableEq, Repr

/-- The wording of each broken rule. -/
def ProtocolFault.message : ProtocolFault → String
  | .decode fault => fault.message
  | .noData => "No data received"
  | .messageTooLarge bytes => s!"Message too large: {bytes} bytes"
  | .frameTooLarge bytes => s!"File frame too large: {bytes} bytes"
  | .noSeparator => "Invalid file format"
  | .nameNotText => "File name is not valid UTF-8"
  | .unsendableName name => "Invalid file name: " ++ Text.quoted name
  | .unsafeName name => s!"Invalid file name: {name}"
  | .lockMissing => "entering LOCKED requires a lock"
  | .notProposer => "Not the proposer of this task"
  | .notCanceller => "Only the proposer can cancel a task"
  | .notExecutor peer id => s!"Peer {peer} is not the executor of task {id}"
  | .notSupported protocol => s!"protocol {protocol} not supported"
  | .other text => text

/-! ## Proposals nobody could run -/

/-- What is wrong with a proposal. -/
inductive ProposalFault
  | missingFields (names : List String)
  | noInstances
  | impossibleRequirement (name : String)
  | badFormat
  | badId (id : String)
  /-- An id that would lead out of the directory where tasks run. -/
  | escapingId (id : String)
  | badInputPath (path : String)
  | other (text : String)
  deriving DecidableEq, Repr

/-- The wording of what is wrong. -/
def ProposalFault.message : ProposalFault → String
  | .missingFields names => "Missing required fields: " ++ String.intercalate ", " names
  | .noInstances => "Instances must be a positive integer"
  | .impossibleRequirement name => s!"{name} must be positive"
  | .badFormat => "Invalid proposal format"
  | .badId id => "Invalid proposal id: " ++ Text.quoted id
  | .escapingId id => "Proposal id " ++ Text.quoted id ++ " escapes the work directory"
  | .badInputPath path => s!"Invalid input file path: {path}"
  | .other text => text

/-! ## Errors -/

/-- Why a request fails. -/
inductive SwarmError
  | protocol (fault : ProtocolFault)
  | proposalNotFound (id : String)
  | lockDenied (denial : LockDenial)
  | claimFailed (id reason : String)
  | execution (text : String)
  | broadcastFailed
  | peerUnreachable (peer reason : String)
  | rejected (peer message : String)
  | invalidTransition (origin target : TaskState)
  | invalidProposal (fault : ProposalFault)
  | invalidLockId
  | io (fault : IoFault)
  | channelClosed
  deriving DecidableEq, Repr

namespace SwarmError

/-- The wording for people. -/
def message : SwarmError → String
  | .protocol fault => "Protocol error: " ++ fault.message
  | .proposalNotFound id => s!"Proposal not found: {id}"
  | .lockDenied denial => "Lock denied: " ++ denial.message
  | .claimFailed id reason => s!"Claim failed for {id}: {reason}"
  | .execution text => s!"Execution error: {text}"
  | .broadcastFailed => "Failed to send proposal to any peers"
  | .peerUnreachable peer reason => s!"Peer unreachable: {peer}: {reason}"
  | .rejected peer message => s!"Peer {peer} rejected request: {message}"
  | .invalidTransition origin target => "Invalid transition from " ++ origin.name ++ " to " ++ target.name
  | .invalidProposal fault => "Invalid proposal: " ++ fault.message
  | .invalidLockId => "Invalid lock ID"
  | .io fault => "I/O error: " ++ fault.message
  | .channelClosed => "Channel error"

/-- The wording for the peer that asked. -/
def wireMessage : SwarmError → String
  | .protocol fault => fault.message
  | .proposalNotFound _ => "Proposal not found"
  | e => e.message

/-- What a tree that could not be read fails with. -/
def ofDecode (fault : DecodeError) : SwarmError := .protocol (.decode fault)

end SwarmError

/-- The result of a request. -/
abbrev Outcome (α : Type) := Except SwarmError α

namespace Codec

/-- Reads a value in memory, as requests do. -/
def read {α : Type} (c : Codec α) (j : Json) : Outcome α :=
  (c.ofJson j).mapError .ofDecode

end Codec

end TaskSwarm
