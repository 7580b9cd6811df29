/-
The copies of a proposal in a swarm.

Every node that has heard of a proposal keeps a copy. The one of its proposer
decides; a node whose own copy says that it was accepted has won.
-/
import TaskSwarm.Swarm.World

set_option autoImplicit false

namespace TaskSwarm.World

/-- The copies of a proposal, with who keeps them. -/
def copies (w : World) (id : String) : List (PeerId × Proposal) :=
  w.members.entries.filterMap fun (peer, m) => (m.store.proposals.get? id).map fun p => (peer, p)

/-- The copy of the proposer. -/
def ownCopy? (w : World) (id : String) : Option Proposal :=
  ((w.copies id).find? fun (peer, p) => p.proposer = peer).map Prod.snd

/-- The copies of all others. -/
def cachedCopies (w : World) (id : String) : List (PeerId × Proposal) :=
  (w.copies id).filter fun (peer, p) => p.proposer ≠ peer

/-- The nodes whose copies say that they were accepted. -/
def winners (w : World) (id : String) : List PeerId :=
  ((w.cachedCopies id).filter fun (peer, p) => p.acceptedBy = some peer).map Prod.fst

/-- The states of the copies of those who were not, each once and in order. -/
def loserStates (w : World) (id : String) : List String :=
  let losers := (w.cachedCopies id).filter fun (peer, p) => p.acceptedBy ≠ some peer
  (losers.map fun (_, p) => p.state.name).eraseDups.mergeSort (· ≤ ·)

end TaskSwarm.World
