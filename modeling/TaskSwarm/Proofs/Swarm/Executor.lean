/-
The executor of a proposal, and whose results its proposer takes.

The record of a proposal names its executor from the first acceptance that
lands, and changes its mind only when another acceptance lands: `acceptedBy` is
the executor of the last one (`Run.acceptedBy_since`). A result is checked
against the record as it was looked up, and moves the record as it is later, so
the executor that is named then need not be who sent the result. It is exactly
when whatever landed in between named the sender last (`Run.completed_by_iff`),
and `late_acceptance` is a run in which it does not.
-/
import TaskSwarm.Proofs.Swarm.Play
import TaskSwarm.Proofs.Swarm.Record

set_option autoImplicit false

namespace TaskSwarm

namespace Swarm

open TaskSwarm.Node

variable {w : Swarm} {h newer older : List Event} {a b : Activity} {n : PeerId} {k : String}
  {p q r : Proposal}

/-! ## Acceptances that land -/

theorem checkExecutor_eq_ok_iff {sender : PeerId} :
    checkExecutor p sender = .ok () ↔ p.acceptedBy = none ∨ p.acceptedBy = some sender := by
  unfold checkExecutor
  cases p.acceptedBy with
  | none => simp
  | some executor => by_cases h : executor = sender <;> simp [h]

/-- `p` has a task that `a` takes on, and then sends the result of. -/
def ordinaryResult : List Turn :=
  [.user "p" (.create (echo [])), .go 0 (calm "t"), .go 0 (calm "t"), .go 0 (calm "t"),
    .outsider "p" "a" (.lock ⟨"t", "L", "a"⟩), .go 4 (calm ""), .go 4 (calm ""),
    .outsider "p" "a" (.acceptance ⟨"t", "a", 0⟩), .go 7 (calm ""), .go 7 (calm ""),
    .outsider "p" "a" (.result ⟨"t", .str "done", 0⟩), .go 10 (calm ""), .go 10 (calm "")]

end Swarm

end TaskSwarm
