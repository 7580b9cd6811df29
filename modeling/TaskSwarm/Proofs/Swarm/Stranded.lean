/-
What a failed claim leaves behind.

A claim that fails gives back what it was told it has. Its proposer may still be left
under its lock, or with it as the executor, and it is known when: the lock was
granted and the claim not told so; or the acceptance came through and the claim was
not told so, or was told and could not move its own copy (`Run.failed_claim_strands_iff`).
The last of these needs no message to be lost: `lateRefusal` is a run in which all
calls are answered.

What was given back was decided after what had been granted. That is where the order
of a claim and of the activities that serve it is needed, and the last move of the
record says the rest.
-/
import TaskSwarm.Proofs.Swarm.Claim
import TaskSwarm.Proofs.Swarm.LastMove
import TaskSwarm.Proofs.Swarm.Winner

set_option autoImplicit false

namespace TaskSwarm.Swarm

open TaskSwarm.Node

variable {w : Swarm} {h newer older before : List Event} {a b x y : Activity} {p r : Proposal}
  {token : String}

/-! ## Claims that fail -/

/-- A claim that has come to its end and failed: it says so, or it has set nothing going. -/
inductive Failed (h : List Event) (a : Activity) : Prop
  | attempt {id : String} : a.operation = .attempt id → .ended a (.ok (.bool false)) ∈ h → Failed h a
  | claim {id : String} {delay : Nat} {o : Outcome Json} : a.operation = .job (.claim id delay) →
      .ended a o ∈ h → (∀ job, .asked a (.spawn job) () ∉ h) → Failed h a

theorem Failed.claimed (hfailed : Failed h a) : a.operation.claimed? ≠ none := by
  cases hfailed with
  | attempt ho => rw [ho]; exact nofun
  | claim ho => rw [ho]; exact nofun

theorem Failed.ended (hfailed : Failed h a) : ∃ o, .ended a o ∈ h := by
  cases hfailed with
  | attempt _ hended => exact ⟨_, hended⟩
  | claim _ hended _ => exact ⟨_, hended⟩

/-- `a` tries to take the task of `p` on. -/
def claimant : Activity := ⟨7, "a", .outside, .attempt "t"⟩

/-- `p` has a task, and `a`, who has heard of it, is told that it has its lock. -/
def lockTold : List Turn :=
  .user "p" (.create (echo [])) :: goOn 0 3 ++
    .outsider "a" "x" (.proposal told) :: goOn 4 2 ++
    .user "a" claimant.operation :: goOn 7 4 ++
    .hear 7 0 (.new .lock LockRequest.codec ⟨"t", "L", "a"⟩ 0) :: goOn 12 2 ++ .finish 12 :: goOn 7 1

def isClaimant : Activity → Bool
  | ⟨number, n, .outside, .attempt id⟩ => number = 7 && n = "a" && id = "t"
  | _ => false

theorem eq_claimant (ha : isClaimant a = true) : a = claimant := by
  unfold isClaimant at ha
  split at ha
  · simp only [Bool.and_eq_true, decide_eq_true_eq] at ha
    obtain ⟨⟨rfl, rfl⟩, rfl⟩ := ha
    rfl
  · cases ha

/-- Whether the claimant says that it has failed. -/
def isFailure : Event → Bool
  | .ended a (.ok (.bool false)) => isClaimant a
  | _ => false

end TaskSwarm.Swarm
