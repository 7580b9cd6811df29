/-
The proposer's side.

A node creates proposals, tells everybody about them and decides on what other
nodes ask for: locks, acceptances, status updates and results. Nothing here holds
more than one command to the store at a time, so every decision that matters is
made by the store itself.
-/
import TaskSwarm.Node.Exchange

set_option autoImplicit false

namespace TaskSwarm.Node

open TaskSwarm.Action (perform ofOutcome)

/-! ## Proposals of its own -/

/-- Tells all peers about a proposal; the number of peers that took note, which must not be zero. -/
def broadcast (s : Settings) (p : Proposal) : Action Nat := do
  let acks ← requestAll s .proposal Proposal.codec p
  if acks = 0 then throw .broadcastFailed
  return acks

/-- Proposes a task to all peers. A proposal that reaches nobody is dropped again. -/
def create (s : Settings) (spec : TaskSpec) : Action Proposal := do
  ofOutcome spec.validate
  let id ← perform .freshId
  let p := Proposal.new id s.peer spec (← now)
  -- Kept before anybody hears of it, so that an answer finds it.
  let _ ← insertProposal p
  match ← (broadcast s p).outcome with
  | .ok _ =>
    emit (.proposalCreated p.id p)
    return p
  | .error e =>
    let _ ← removeProposal p.id
    throw e

/-- Tells all peers that a task is no longer wanted; the number of peers that took note. -/
def broadcastCancellation (s : Settings) (id : String) : Action Nat := do
  requestAll s .cancellation Cancellation.codec ⟨id, some "Cancelled by proposer", ← now⟩

/-- Cancels a task; false if it had come to its end before. -/
def cancel (s : Settings) (id : String) : Action Bool := do
  let p ← requireProposal id
  if p.state.isTerminal then return false
  match ← (transition id .cancelled .none).outcome with
  | .ok _ =>
    emit (.proposalCancelled id)
    if p.proposer = s.peer then
      let _ ← broadcastCancellation s id
    return true
  | .error (.invalidTransition ..) => return false
  | .error e => throw e

/-! ## Requests of other nodes -/

/-- Decides on a request for a lock. -/
def handleLock (request : LockRequest) : Action LockAnswer := do
  let decision ← perform (.store (.lock request (← now)))
  return .ofDecision decision

/-- Takes a lock back. -/
def handleUnlock (request : UnlockRequest) : Action UnlockAnswer := do
  let r ← perform (.store (.unlock request))
  match r with
  | .ok () => return ⟨true, none⟩
  | .error .invalidLockId => return ⟨false, some SwarmError.invalidLockId.message⟩
  | .error e => throw e

/-- Accepts the peer that takes a LOCKED task on, once it has the files the task needs. -/
def handleAcceptance (s : Settings) (payload : Acceptance) : Action Json := do
  let p ← requireProposal payload.proposalId
  if p.proposer ≠ s.peer then throw (.protocol .notProposer)
  if p.state ≠ .locked then throw (.claimFailed p.id ("Task is " ++ p.state.name))
  match ← (streamFiles s payload.acceptedBy p.id p.container.inputFiles).outcome with
  | .ok () => pure ()
  | .error e =>
    -- The task may have moved on while files were under way; then nothing is put back.
    let _ ← (transition p.id .proposed .none).outcome
    throw e
  let _ ← transition p.id .accepted (.ofExecutor payload.acceptedBy)
  emit (.proposalAccepted p.id payload.acceptedBy)
  return .object [("proposalId", .str p.id), ("accepted", .bool true), ("timestamp", Codec.int64.encode (← now))]

/-- Refuses whoever is not the executor of a task that has one. -/
def checkExecutor (p : Proposal) (sender : PeerId) : Outcome Unit :=
  match p.acceptedBy with
  | some executor => if executor = sender then .ok () else .error (.protocol (.notExecutor sender p.id))
  | none => .ok ()

/-- Whether a status update moves a proposal on, and does not only tell its progress. -/
def moves (p : Proposal) (status : TaskState) : Bool :=
  (status = .running || status = .failed) && p.state ≠ status && p.state.canBecome status

/-- The error a status update tells of. -/
def failureText (progress : Option Json) : String :=
  ((progress.bind fun p => p.get? "error").bind Json.str?).getD "remote execution failed"

/-- Notes how a task is doing. -/
def handleStatus (sender : PeerId) (payload : StatusUpdate) : Action Json := do
  let p ← requireProposal payload.taskId
  ofOutcome (checkExecutor p sender)
  if moves p payload.status then
    let _ ← transition payload.taskId payload.status (.ofProgress payload.progress)
    if payload.status = .failed then
      emit (.taskFailed payload.taskId (failureText payload.progress))
  else
    setProgress payload.taskId payload.progress
  emit (.taskStatusUpdated payload.taskId payload.status payload.progress)
  return .object [("taskId", .str payload.taskId), ("received", .bool true)]

/-- Takes the result of a task. -/
def handleResult (sender : PeerId) (payload : TaskResult) : Action Json := do
  let p ← requireProposal payload.proposalId
  ofOutcome (checkExecutor p sender)
  let _ ← transition payload.proposalId .completed (.ofResult payload.result)
  emit (.taskCompleted payload.proposalId payload.result)
  return .object [("proposalId", .str payload.proposalId), ("received", .bool true)]

end TaskSwarm.Node
