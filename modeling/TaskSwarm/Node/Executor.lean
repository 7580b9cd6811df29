/-
The executor's side.

A node hears of proposals, tries to take on those it has room for, runs them and
reports what came of them. Taking on goes: a slot, the proposer's lock, the
proposer's acceptance; what fails on the way is undone, the slot last.
-/
import TaskSwarm.Node.Exchange

set_option autoImplicit false

namespace TaskSwarm.Node

open TaskSwarm.Action (perform ofOutcome)

/-! ## Hearing of proposals -/

/-- Whether the node could run a task now. -/
def canHandle (p : Proposal) : Action Bool := perform (.store (.canHandle p.requirements))

/-- Sets a claim going. -/
def scheduleClaim (s : Settings) (id : String) : Action Unit := do
  let delay ← if s.claimJitter = 0 then pure 0 else perform (.random s.claimJitter)
  perform (.spawn (.claim id delay))

/-- Keeps the proposal of another node, and claims it if it fits. -/
def handleProposal (s : Settings) (sender : PeerId) (p : Proposal) : Action Json := do
  ofOutcome p.validateReceived
  let ack := Json.object
    [("proposalId", .str p.id), ("received", .bool true), ("timestamp", Codec.int64.encode (← now))]
  if p.proposer = s.peer then return ack
  if !(← insertProposal p) then return ack
  emit (.proposalReceived p.id sender p)
  if p.state = .proposed then
    if ← canHandle p then scheduleClaim s p.id
  return ack

/-- Notes that a proposer has cancelled a task. -/
def handleCancellation (sender : PeerId) (payload : Cancellation) : Action Json := do
  let ack := Json.object [("proposalId", .str payload.proposalId), ("received", .bool true)]
  match ← proposal? payload.proposalId with
  | none => return ack
  | some p =>
    if p.proposer ≠ sender then throw (.protocol .notCanceller)
    if p.state.canBecome .cancelled then
      let _ ← transition payload.proposalId .cancelled .none
      emit (.proposalCancelled payload.proposalId)
    return ack

/-! ## Claiming -/

/-- Gives a lock back to its proposer, who may refuse or be gone. -/
def releaseRemoteLock (s : Settings) (p : Proposal) (token : String) : Action Unit := do
  let _ ← (request s p.proposer .unlock UnlockRequest.codec ⟨p.id, token⟩).outcome

/-- The error for a lock that was not granted. -/
def lockRefusal (id : String) (a : LockAnswer) : SwarmError :=
  let reason := a.reason.getD ""
  match LockDenial.ofReason? reason with
  | some denial => .lockDenied denial
  | none => .claimFailed id reason

/-- Asks the proposer for the lock of a proposal. -/
def requestLock (s : Settings) (p : Proposal) (token : String) : Action Unit := do
  let value ← request s p.proposer .lock LockRequest.codec ⟨p.id, token, s.peer⟩
  let a ← ofOutcome (LockAnswer.codec.read value)
  if !a.success then throw (lockRefusal p.id a)

/-- Asks the proposer to be accepted. -/
def requestAcceptance (s : Settings) (p : Proposal) : Action Unit := do
  let _ ← request s p.proposer .acceptance Acceptance.codec ⟨p.id, s.peer, ← now⟩

/-- Takes a proposal on for which the node holds a slot: lock, then acceptance. -/
def lockAndAccept (s : Settings) (p : Proposal) : Action Proposal := do
  let token ← perform .freshToken
  requestLock s p token
  match ← (transition p.id .locked (.ofLock ⟨token, s.peer, ← now⟩)).outcome with
  | .ok _ => pure ()
  | .error e =>
    releaseRemoteLock s p token
    throw e
  match ← (requestAcceptance s p).outcome with
  | .ok () => pure ()
  | .error e =>
    -- The proposer hears of it first; then the copy goes back, and last the slot.
    releaseRemoteLock s p token
    let _ ← (transition p.id .proposed .none).outcome
    throw (.claimFailed p.id e.message)
  transition p.id .accepted (.ofExecutor s.peer)

/-- Takes a proposal on: a slot, then the proposer's consent. -/
def claim (s : Settings) (id : String) : Action Proposal := do
  let p ← requireProposal id
  if p.state ≠ .proposed then throw (.claimFailed id ("local copy is " ++ p.state.name))
  if !(← perform (.store (.reserve id p.requirements))) then
    throw (.claimFailed id "insufficient capacity")
  match ← (lockAndAccept s p).outcome with
  | .ok q => return q
  | .error e =>
    releaseSlot id
    throw e

/-- Tries to take a proposal on and sets it going; whether that worked. -/
def attempt (s : Settings) (id : String) : Action Bool := do
  match ← (claim s id).outcome with
  | .ok p =>
    perform (.spawn (.run p))
    return true
  | .error _ => return false

/-! ## Running -/

/-- Tells the proposer how a task is doing, if it can be told. -/
def sendStatus (s : Settings) (p : Proposal) (status : TaskState) (progress : Option Json) :
    Action Unit := do
  let _ ← (request s p.proposer .status StatusUpdate.codec ⟨p.id, status, progress, ← now⟩).outcome

/-- Notes that a task failed, and tells the proposer. -/
def failTask (s : Settings) (p : Proposal) (message : String) : Action Unit := do
  let progress := some (Json.object [("error", .str message)])
  let _ ← (transition p.id .failed (.ofProgress progress)).outcome
  emit (.taskFailed p.id message)
  sendStatus s p .failed progress

/-- Reports a result, and notes that the task is done once the proposer has it. -/
def completeTask (s : Settings) (id : String) (result : Json) : Action Unit := do
  let p ← requireProposal id
  match ← (request s p.proposer .result TaskResult.codec ⟨id, result, ← now⟩).outcome with
  | .ok _ =>
    let _ ← transition id .completed (.ofResult result)
    emit (.taskCompleted id result)
  | .error e =>
    failTask s p s!"Failed to report result: {e.message}"
    throw e

/-- Runs a task that was taken on and reports what came of it. Its slot is free afterwards. -/
def startTask (s : Settings) (accepted : Proposal) : Action Unit := do
  let id := accepted.id
  match ← (transition id .running .none).outcome with
  | .error e =>
    releaseSlot id
    throw e
  | .ok p =>
    emit (.taskStarted id s.peer)
    sendStatus s p .running none
    let outcome : Outcome Unit ←
      match ← perform (.execute p) with
      | .ok result => (completeTask s id result).outcome
      | .error e => do
        failTask s p e.message
        pure (.error e)
    -- The slot is kept until the report is made.
    releaseSlot id
    ofOutcome outcome

end TaskSwarm.Node
