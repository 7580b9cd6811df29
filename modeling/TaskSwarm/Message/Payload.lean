/-
What requests carry.

A request for a lock is with the locks (`LockRequest`), since deciding on it
needs nothing else.
-/
import TaskSwarm.Task.Locking

set_option autoImplicit false

namespace TaskSwarm

/-- A peer saying that it takes a task on. -/
structure Acceptance where
  proposalId : String
  acceptedBy : PeerId
  timestamp : Int64
  deriving DecidableEq, Repr

/-- How acceptances are written. -/
def Acceptance.codec : Codec Acceptance :=
  Fields.codec
    (.cons (.required "proposalId" .string) <|
     .cons (.required "acceptedBy" .string) <|
     .cons (.required "timestamp" .int64) .nil)
    "AcceptancePayload"
    (fun (id, acceptedBy, timestamp, ()) => ⟨id, acceptedBy, timestamp⟩)
    (fun p => (p.proposalId, p.acceptedBy, p.timestamp, ()))

/-- The executor's word on how a task is doing. -/
structure StatusUpdate where
  taskId : String
  status : TaskState
  progress : Option Json
  timestamp : Int64
  deriving DecidableEq

/-- How status updates are written. -/
def StatusUpdate.codec : Codec StatusUpdate :=
  Fields.codec
    (.cons (.required "taskId" .string) <|
     .cons (.required "status" TaskState.codec) <|
     .cons (.withDefault "progress" (.option .json) none) <|
     .cons (.required "timestamp" .int64) .nil)
    "StatusPayload"
    (fun (id, status, progress, timestamp, ()) => ⟨id, status, progress, timestamp⟩)
    (fun p => (p.taskId, p.status, p.progress, p.timestamp, ()))

/-- The answer to a request for a lock. -/
structure LockAnswer where
  success : Bool
  reason : Option String
  token : Option String
  deriving DecidableEq, Repr

namespace LockAnswer

/-- How answers to requests for a lock are written. -/
def codec : Codec LockAnswer :=
  Fields.codec
    (.cons (.required "success" .bool) <|
     .cons (.withDefault "reason" (.option .string) none) <|
     .cons (.withDefault "lockId" (.option .string) none) .nil)
    "LockResponse"
    (fun (success, reason, token, ()) => ⟨success, reason, token⟩)
    (fun a => (a.success, a.reason, a.token, ()))

/-- The lock is granted. -/
def granted (token : String) : LockAnswer := ⟨true, some "Lock acquired", some token⟩

/-- The lock is refused. -/
def denied (reason : String) : LockAnswer := ⟨false, some reason, none⟩

/-- The answer a decision is sent as. -/
def ofDecision : LockDecision → LockAnswer
  | .granted token _ => granted token
  | .denied denial => denied denial.message

end LockAnswer

/-- A peer giving a lock back. -/
structure UnlockRequest where
  proposalId : String
  token : String
  deriving DecidableEq, Repr

/-- How requests to take a lock back are written. -/
def UnlockRequest.codec : Codec UnlockRequest :=
  Fields.codec
    (.cons (.required "proposalId" .string) <| .cons (.required "lockId" .string) .nil)
    "UnlockRequest"
    (fun (id, token, ()) => ⟨id, token⟩)
    (fun r => (r.proposalId, r.token, ()))

/-- The answer to a request to take a lock back. -/
structure UnlockAnswer where
  success : Bool
  reason : Option String
  deriving DecidableEq, Repr

/-- How answers to requests to take a lock back are written. -/
def UnlockAnswer.codec : Codec UnlockAnswer :=
  Fields.codec
    (.cons (.required "success" .bool) <|
     .cons ((RecordField.withDefault "reason" (.option .string) none).omitting Option.isNone) .nil)
    "UnlockResponse"
    (fun (success, reason, ()) => ⟨success, reason⟩)
    (fun a => (a.success, a.reason, ()))

/-- What came of a task. -/
structure TaskResult where
  proposalId : String
  result : Json
  timestamp : Int64
  deriving DecidableEq

/-- How results are written. -/
def TaskResult.codec : Codec TaskResult :=
  Fields.codec
    (.cons (.required "proposalId" .string) <|
     .cons (.required "result" .json) <|
     .cons (.required "timestamp" .int64) .nil)
    "ResultPayload"
    (fun (id, result, timestamp, ()) => ⟨id, result, timestamp⟩)
    (fun p => (p.proposalId, p.result, p.timestamp, ()))

/-- A proposer's word that a task is no longer wanted. -/
structure Cancellation where
  proposalId : String
  reason : Option String
  timestamp : Int64
  deriving DecidableEq, Repr

/-- How cancellations are written. -/
def Cancellation.codec : Codec Cancellation :=
  Fields.codec
    (.cons (.required "proposalId" .string) <|
     .cons (.withDefault "reason" (.option .string) none) <|
     .cons (.required "timestamp" .int64) .nil)
    "CancellationPayload"
    (fun (id, reason, timestamp, ()) => ⟨id, reason, timestamp⟩)
    (fun p => (p.proposalId, p.reason, p.timestamp, ()))

end TaskSwarm
