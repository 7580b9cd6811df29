/-
Locks.

Who wants to take a task on first asks its proposer for the lock. The proposer
grants it for a PROPOSED task, and for a LOCKED one whose lock is older than the
time it may be held, in which case the former holder is not told. A lock is given
back with the token it was asked with.
-/
import TaskSwarm.Task.Proposal

set_option autoImplicit false

namespace TaskSwarm

/-- A peer asking for the lock of a proposal, under a token of its own making. -/
structure LockRequest where
  proposalId : String
  token : String
  requester : PeerId
  deriving DecidableEq, Repr

/-- How requests for a lock are written. -/
def LockRequest.codec : Codec LockRequest :=
  Fields.codec
    (.cons (.required "proposalId" .string) <|
     .cons (.required "lockId" .string) <|
     .cons (.required "requesterId" .string) .nil)
    "LockRequest"
    (fun (id, token, requester, ()) => ⟨id, token, requester⟩)
    (fun r => (r.proposalId, r.token, r.requester, ()))

namespace Proposal

/-- How long the proposal has been locked. A lock without a time is as good as new. -/
def lockAge (p : Proposal) (now : Int64) : Int64 := now - p.lockTime.getD now

/-- Whether a peer may not have the lock now, and why. -/
def lockDenial? (p : Proposal) (requester : PeerId) (now timeout : Int64) : Option LockDenial :=
  if requester = p.proposer then some .selfClaim
  else
    match p.state with
    | .locked => if p.lockAge now < timeout then some .alreadyLocked else none
    | .proposed => none
    | _ => some .notAvailable

/-- The proposal with its lock granted, or why it is not. -/
def grant (p : Proposal) (request : LockRequest) (now timeout : Int64) : Except LockDenial Proposal :=
  match p.lockDenial? request.requester now timeout with
  | some denial => .error denial
  | none => (p.lockFor ⟨request.token, request.requester, now⟩).mapError fun _ => .notAvailable

/-- The proposal with its lock given back, for the token of that lock only. -/
def release (p : Proposal) (token : String) : Outcome Proposal :=
  if p.lockId = some token then p.moveTo .proposed else .error .invalidLockId

/-- A grant that is not denied always succeeds. -/
theorem grant_eq_ok_iff {p q : Proposal} {request : LockRequest} {now timeout : Int64} :
    p.grant request now timeout = .ok q ↔
      p.lockDenial? request.requester now timeout = none ∧
        q = { p with state := .locked, lockId := some request.token, lockTime := some now,
                     lockedBy := some request.requester } := by
  unfold grant
  cases h : p.lockDenial? request.requester now timeout with
  | some denial => simp
  | none =>
    have hs : p.state.canBecome .locked = true := by
      unfold lockDenial? at h
      split at h
      · simp at h
      · split at h <;> simp_all [TaskState.canBecome]
    have hl : p.lockFor ⟨request.token, request.requester, now⟩ = .ok _ := lockFor_eq_ok_iff.2 ⟨hs, rfl⟩
    simp only [hl]
    show Except.ok _ = Except.ok q ↔ _
    simp [eq_comm]

end Proposal

/-! ## The proposer's side -/

/-- What a proposer answers to a request for a lock. -/
inductive LockDecision
  | granted (token : String) (former : TaskState)
  | denied (denial : LockDenial)
  deriving DecidableEq, Repr

/-- Decides on a request for a lock, given the record it is about if there is one. -/
def decideLock (record : Option Proposal) (request : LockRequest) (now timeout : Int64) :
    Option Proposal × LockDecision :=
  match record with
  | none => (none, .denied .notFound)
  | some p =>
    match p.grant request now timeout with
    | .ok q => (some q, .granted request.token p.state)
    | .error denial => (some p, .denied denial)

/-- Takes a lock back; the answer is the state the record was in. -/
def releaseLock (record : Option Proposal) (id token : String) : Outcome (Proposal × TaskState) :=
  match record with
  | none => .error (.proposalNotFound id)
  | some p => (p.release token).map fun q => (q, p.state)

end TaskSwarm
