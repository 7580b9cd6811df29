/-
The store of a node.

A node keeps its proposals, its capabilities and the tasks that hold a slot in
one store, and everything it does to them is a command. Commands are decided one
at a time: `step` answers a command, gives the store after it and the events it
causes, which are the state changes of proposals.
-/
import TaskSwarm.Event.Basic
import TaskSwarm.Task.Locking
import TaskSwarm.Message.Payload

set_option autoImplicit false

namespace TaskSwarm

/-- What else changes when a proposal goes from state to state. -/
structure Patch where
  acceptedBy : Option PeerId
  result : Option Json
  progress : Option Json
  /-- Needed to enter LOCKED, and only looked at then. -/
  lock : Option Lock

namespace Patch

/-- Nothing else changes. -/
def none : Patch := ⟨.none, .none, .none, .none⟩

/-- The proposal is under a lock. -/
def ofLock (lock : Lock) : Patch := { none with lock := some lock }

/-- The proposal was taken on by a peer. -/
def ofExecutor (peer : PeerId) : Patch := { none with acceptedBy := some peer }

/-- The task has a result. -/
def ofResult (result : Json) : Patch := { none with result := some result }

/-- The task has got so far. -/
def ofProgress (progress : Option Json) : Patch := { none with progress := progress }

/-- The proposal with everything the patch gives, its lock apart. -/
def apply (patch : Patch) (p : Proposal) : Proposal :=
  { p with
    acceptedBy := patch.acceptedBy.or p.acceptedBy
    result := patch.result.or p.result
    progress := patch.progress.or p.progress }

end Patch

/-! ## Commands -/

/-- What a store is asked to do. -/
inductive Command
  /-- Keep a proposal, unless one with its id is kept. -/
  | insert (proposal : Proposal)
  | get (id : String)
  | list (state : Option TaskState)
  | remove (id : String)
  | transition (id : String) (target : TaskState) (patch : Patch)
  | setProgress (id : String) (progress : Option Json)
  | lock (request : LockRequest) (now : Int64)
  | unlock (request : UnlockRequest)
  | capabilities
  | updateCapabilities (update : CapabilitiesUpdate)
  | canHandle (requirements : Requirements)
  /-- Check the capacity and take a slot at once. -/
  | reserve (id : String) (requirements : Requirements)
  /-- Give the slot of a task back. -/
  | finish (id : String)
  | activeTasks

/-- The answer to a command. -/
abbrev Command.Reply : Command → Type
  | .insert _ => Bool
  | .get _ => Option Proposal
  | .list _ => List Proposal
  | .remove _ => Option Proposal
  | .transition .. => Outcome Proposal
  | .setProgress .. => Outcome Unit
  | .lock .. => LockDecision
  | .unlock _ => Outcome Unit
  | .capabilities => Capabilities
  | .updateCapabilities _ => Capabilities
  | .canHandle _ => Bool
  | .reserve .. => Bool
  | .finish _ => Unit
  | .activeTasks => List String

/-! ## The store -/

/-- What a node keeps. -/
structure Store where
  proposals : SortedMap Proposal
  capabilities : Capabilities
  /-- The tasks that hold a slot. -/
  active : SortedMap Unit
  /-- How long a lock may be held, in milliseconds. -/
  lockTimeout : Int64

namespace Store

/-- A store without proposals. -/
def empty (capabilities : Capabilities) (lockTimeout : Int64) : Store :=
  ⟨.empty, capabilities, .empty, lockTimeout⟩

/-- The order in which proposals are listed. -/
def listsBefore (p q : Proposal) : Bool :=
  p.timestamp < q.timestamp || (p.timestamp = q.timestamp && p.id ≤ q.id)

/-- The proposals in a state, or all of them, by time and id. -/
def list (s : Store) (state : Option TaskState) : List Proposal :=
  (s.proposals.values.filter fun p => state.all (· = p.state)).mergeSort listsBefore

/-- The number of slots taken. -/
def activeCount (s : Store) : Nat := s.active.size

/-- Whether a task would find a slot. -/
def canHandle (s : Store) (requirements : Requirements) : Bool :=
  s.capabilities.canHandle requirements s.activeCount

/-- Keeps a proposal under an id. -/
def put (s : Store) (id : String) (p : Proposal) : Store :=
  { s with proposals := s.proposals.insert id p }

/-- Whether a task holds a slot. -/
def isActive (s : Store) (id : String) : Bool := s.active.contains id

/-- Gives the slot of a task back. -/
def finish (s : Store) (id : String) : Store := { s with active := s.active.erase id }

/-- A proposal in its next state, patched. -/
def moved (p : Proposal) (target : TaskState) (patch : Patch) : Outcome Proposal := do
  let q ←
    match target, patch.lock with
    | .locked, some lock => p.lockFor lock
    | .locked, none => .error (.protocol .lockMissing)
    | target, _ => p.moveTo target
  return patch.apply q

/-- Moves a proposal on and patches it. -/
def transition (s : Store) (id : String) (target : TaskState) (patch : Patch) :
    Store × Outcome Proposal × List NodeEvent :=
  match s.proposals.get? id with
  | none => (s, .error (.proposalNotFound id), [])
  | some p =>
    match moved p target patch with
    | .error e => (s, .error e, [])
    | .ok q => (s.put id q, .ok q, [.proposalStateChanged id p.state target])

/-- Decides on a request for a lock. -/
def lock (s : Store) (request : LockRequest) (now : Int64) :
    Store × LockDecision × List NodeEvent :=
  let id := request.proposalId
  match s.proposals.get? id with
  | none => (s, .denied .notFound, [])
  | some p =>
    match p.grant request now s.lockTimeout with
    | .ok q => (s.put id q, .granted request.token p.state, [.proposalStateChanged id p.state .locked])
    | .error denial => (s, .denied denial, [])

/-- Takes a lock back. -/
def unlock (s : Store) (request : UnlockRequest) : Store × Outcome Unit × List NodeEvent :=
  let id := request.proposalId
  match s.proposals.get? id with
  | none => (s, .error (.proposalNotFound id), [])
  | some p =>
    match p.release request.token with
    | .ok q => (s.put id q, .ok (), [.proposalStateChanged id p.state .proposed])
    | .error e => (s, .error e, [])

/-- Answers a command: the store after it, the answer and the events it causes. -/
def step (s : Store) : (c : Command) → Store × c.Reply × List NodeEvent
  | .insert p =>
    if s.proposals.contains p.id then (s, false, []) else (s.put p.id p, true, [])
  | .get id => (s, s.proposals.get? id, [])
  | .list state => (s, s.list state, [])
  | .remove id =>
    ({ s.finish id with proposals := s.proposals.erase id }, s.proposals.get? id, [])
  | .transition id target patch => s.transition id target patch
  | .setProgress id progress =>
    match s.proposals.get? id with
    | none => (s, .error (.proposalNotFound id), [])
    | some p => (s.put id { p with progress := progress }, .ok (), [])
  | .lock request now => s.lock request now
  | .unlock request => s.unlock request
  | .capabilities => (s, s.capabilities, [])
  | .updateCapabilities update =>
    let merged := s.capabilities.merge update
    ({ s with capabilities := merged }, merged, [])
  | .canHandle requirements => (s, s.canHandle requirements, [])
  | .reserve id requirements =>
    if s.isActive id || !s.canHandle requirements then (s, false, [])
    else ({ s with active := s.active.insert id () }, true, [])
  | .finish id => (s.finish id, (), [])
  | .activeTasks => (s, s.active.keys, [])

end Store

end TaskSwarm
