/-
Proposals.

A proposal is a task with the state of its life: who proposed it, who holds its
lock, who took it on and what came of it. The copy its proposer keeps decides;
copies elsewhere are caches. `moveTo` and `lockFor` are the only ways from one
state to another: the first follows `TaskState.canBecome` and drops the lock
when it leaves LOCKED, the second enters LOCKED and records whose lock it is.
-/
import TaskSwarm.Error
import TaskSwarm.Task.Capabilities
import TaskSwarm.Text.Blank

set_option autoImplicit false

namespace TaskSwarm

/-! ## What is to be done -/

/-- The workload an executor is given. -/
structure Container where
  image : String
  command : String
  env : SortedMap String
  ports : List String
  volumes : List String
  /-- Files of the proposer that are sent to the peer that takes the task on. -/
  inputFiles : List String
  deriving DecidableEq

namespace Container

/-- No workload. -/
def empty : Container := ⟨"", "", .empty, [], [], []⟩

instance : Inhabited Container := ⟨empty⟩

/-- The text of a path. -/
def pathCodec : Codec String := .textAs "path string"

/-- How workloads are written. -/
def codec : Codec Container :=
  Fields.codec
    (.cons (.required "image" .string) <|
     .cons (.required "command" .string) <|
     .cons (.withDefault "env" (.map .string) .empty) <|
     .cons (.withDefault "ports" (.list .string) []) <|
     .cons (.withDefault "volumes" (.list .string) []) <|
     .cons ((RecordField.withDefault "inputFiles" (.list pathCodec) []).omitting List.isEmpty) .nil)
    "ContainerConfig"
    (fun (image, command, env, ports, volumes, inputFiles, ()) =>
      ⟨image, command, env, ports, volumes, inputFiles⟩)
    (fun c => (c.image, c.command, c.env, c.ports, c.volumes, c.inputFiles, ()))

end Container

/-- What somebody wants to have done, before a node proposes it. -/
structure TaskSpec where
  requirements : Requirements
  container : Container
  instances : Nat
  /-- Seconds; carried along for the executor to honour. -/
  timeout : Nat
  maxRetries : Nat
  deriving DecidableEq

namespace TaskSpec

/-- What is assumed of a task that says nothing. -/
def default : TaskSpec := ⟨.default, .empty, 1, 3600, 3⟩

instance : Inhabited TaskSpec := ⟨default⟩

/-- How the description of a task is written. -/
def codec : Codec TaskSpec :=
  Fields.codec
    (.cons (.withDefault "requirements" Requirements.codec default.requirements) <|
     .cons (.withDefault "containerConfig" Container.codec default.container) <|
     .cons (.withDefault "instances" .nat32 default.instances) <|
     .cons (.withDefault "timeout" .nat64 default.timeout) <|
     .cons (.withDefault "maxRetries" .nat32 default.maxRetries) .nil)
    "ProposalConfig"
    (fun (requirements, container, instances, timeout, maxRetries, ()) =>
      ⟨requirements, container, instances, timeout, maxRetries⟩)
    (fun t => (t.requirements, t.container, t.instances, t.timeout, t.maxRetries, ()))

/-- The parts of a workload without which no peer could run it, of those that are blank. -/
def missing (t : TaskSpec) : List String :=
  (if Text.isBlankText t.container.image then ["image"] else []) ++
    if Text.isBlankText t.container.command then ["command"] else []

/-- What is wrong with a task that no peer could run. -/
def fault? (t : TaskSpec) : Option ProposalFault :=
  if !t.missing.isEmpty then some (.missingFields t.missing)
  else if t.instances < 1 then some .noInstances
  else t.requirements.firstImpossible.map .impossibleRequirement

/-- Refuses tasks that no peer could run. -/
def validate (t : TaskSpec) : Outcome Unit :=
  match t.fault? with
  | some fault => .error (.invalidProposal fault)
  | none => .ok ()

end TaskSpec

/-! ## Proposals -/

/-- Whose lock a proposal is under, and since when. -/
structure Lock where
  token : String
  holder : PeerId
  since : Int64
  deriving DecidableEq, Repr

/-- A task offered to the swarm. -/
structure Proposal where
  id : String
  proposer : PeerId
  timestamp : Int64
  requirements : Requirements
  container : Container
  instances : Nat
  timeout : Nat
  maxRetries : Nat
  state : TaskState
  acceptedBy : Option PeerId
  result : Option Json
  progress : Option Json
  lockId : Option String
  lockTime : Option Int64
  lockedBy : Option PeerId
  deriving DecidableEq

namespace Proposal

/-- A fresh proposal for a task. -/
def new (id : String) (proposer : PeerId) (spec : TaskSpec) (timestamp : Int64) : Proposal where
  id := id
  proposer := proposer
  timestamp := timestamp
  requirements := spec.requirements
  container := spec.container
  instances := spec.instances
  timeout := spec.timeout
  maxRetries := spec.maxRetries
  state := .proposed
  acceptedBy := none
  result := none
  progress := none
  lockId := none
  lockTime := none
  lockedBy := none

/-- How proposals are written. -/
def codec : Codec Proposal :=
  Fields.codec
    (.cons (.required "id" .string) <|
     .cons (.required "proposerId" .string) <|
     .cons (.withDefault "timestamp" .int64 0) <|
     .cons (.withDefault "requirements" Requirements.codec .default) <|
     .cons (.required "containerConfig" Container.codec) <|
     .cons (.withDefault "instances" .nat32 TaskSpec.default.instances) <|
     .cons (.withDefault "timeout" .nat64 TaskSpec.default.timeout) <|
     .cons (.withDefault "maxRetries" .nat32 TaskSpec.default.maxRetries) <|
     .cons (.withDefault "state" TaskState.codec .proposed) <|
     .cons (.withDefault "acceptedBy" (.option .string) none) <|
     .cons (.withDefault "result" (.option .json) none) <|
     .cons (.withDefault "progress" (.option .json) none) <|
     .cons (.withDefault "lockId" (.option .string) none) <|
     .cons (.withDefault "lockTimestamp" (.option .int64) none) <|
     .cons (.withDefault "lockedBy" (.option .string) none) .nil)
    "TaskProposal"
    (fun (id, proposer, timestamp, requirements, container, instances, timeout, maxRetries, state,
        acceptedBy, result, progress, lockId, lockTime, lockedBy, ()) =>
      ⟨id, proposer, timestamp, requirements, container, instances, timeout, maxRetries, state,
        acceptedBy, result, progress, lockId, lockTime, lockedBy⟩)
    (fun p => (p.id, p.proposer, p.timestamp, p.requirements, p.container, p.instances, p.timeout,
      p.maxRetries, p.state, p.acceptedBy, p.result, p.progress, p.lockId, p.lockTime, p.lockedBy, ()))

/-- What is wrong with a proposal that no honest peer would have sent. -/
def receivedFault? (p : Proposal) : Option ProposalFault :=
  if p.id.isEmpty || p.proposer.isEmpty then some .badFormat
  else if !Identifier.isValid p.id then some (.badId p.id)
  else none

/-- Refuses proposals that no honest peer would have sent. -/
def validateReceived (p : Proposal) : Outcome Unit :=
  match p.receivedFault? with
  | some fault => .error (.invalidProposal fault)
  | none => .ok ()

/-! ## From state to state -/

/-- The proposal without a lock. -/
def unlocked (p : Proposal) : Proposal :=
  { p with lockId := none, lockTime := none, lockedBy := none }

/-- The proposal in another state, if that state can follow. Outside LOCKED there is no lock. -/
def moveTo (p : Proposal) (next : TaskState) : Outcome Proposal :=
  if p.state.canBecome next then
    let moved := { p with state := next }
    .ok (if next = .locked then moved else moved.unlocked)
  else .error (.invalidTransition p.state next)

/-- The proposal under a lock, if LOCKED can follow. -/
def lockFor (p : Proposal) (lock : Lock) : Outcome Proposal := do
  let p ← p.moveTo .locked
  return { p with lockId := some lock.token, lockTime := some lock.since, lockedBy := some lock.holder }

theorem unlocked_state (p : Proposal) : p.unlocked.state = p.state := rfl

theorem moveTo_eq_ok_iff {p q : Proposal} {next : TaskState} :
    p.moveTo next = .ok q ↔
      p.state.canBecome next = true ∧
        q = if next = .locked then { p with state := next } else { p with state := next }.unlocked := by
  unfold moveTo
  by_cases h : p.state.canBecome next = true
  · simp only [h, if_true, true_and, Except.ok.injEq]
    exact eq_comm
  · simp [h]

theorem state_of_moveTo {p q : Proposal} {next : TaskState} (h : p.moveTo next = .ok q) :
    q.state = next := by
  obtain ⟨-, rfl⟩ := moveTo_eq_ok_iff.1 h
  split <;> rfl

theorem lockFor_eq_ok_iff {p q : Proposal} {lock : Lock} :
    p.lockFor lock = .ok q ↔
      p.state.canBecome .locked = true ∧
        q = { p with state := .locked, lockId := some lock.token, lockTime := some lock.since,
                     lockedBy := some lock.holder } := by
  unfold lockFor moveTo
  by_cases h : p.state.canBecome .locked = true
  · simp only [h, if_true, true_and, bind, Except.bind, pure, Except.pure, Except.ok.injEq]
    exact eq_comm
  · simp [h, bind, Except.bind]

end Proposal

end TaskSwarm
