/-
Cancelling a task, over a run.

Its node's user and its proposer may both have a task cancelled, and the task may end
meanwhile. The store decides: CANCELLED has no way out, so of two moves there the second
comes after a removal, and who was refused knows that the task has ended. Whoever has made
the move tells so before it does anything else (`Run.told_next`), and nobody else tells so
(`Run.moved_before_told`).

A notice is checked against the proposal as it was looked up. What stands there when it
moves is that proposal still: to find another one in its place, the node would have to
remove one of its own from under the notice, and its own are cancelled by then if it sends
notice of them itself (`Run.proposer_of_notice`).
-/
import TaskSwarm.Proofs.Node.Cancelling
import TaskSwarm.Proofs.Swarm.Endings
import TaskSwarm.Proofs.Swarm.Slots

set_option autoImplicit false

namespace TaskSwarm

namespace Swarm

open TaskSwarm.Node

variable {w : Swarm} {h newer older : List Event} {a b : Activity} {n sender : PeerId} {k : String}
  {p q : Proposal} {c : Cancellation} {patch : Patch} {o : Outcome Json} {v : Json}

/-! ## Moves, and tellings -/

end Swarm

end TaskSwarm
