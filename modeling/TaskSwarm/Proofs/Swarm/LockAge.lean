/-
The age of a lock.

A request for a lock that is taken is decided by how old the lock is: the clock's reading less
the time in the record, in 64 bits. Whoever locks a record writes down a time that it has just
read off its clock (`Run.read_of_locks`), so what is locked here has an age that fits. A copy
may come in LOCKED since any time at all, and nothing looks at that time (`exists_admitting`).
If it lies so far before the epoch that the age does not fit, the age comes out negative, and
the oldest lock there is counts as one that was just taken (`lockAge_neg`). That is so until
the copy is moved, and it is the only way (`Run.lockAges_fit`).
-/
import TaskSwarm.Proofs.Node.Restraint
import TaskSwarm.Proofs.Swarm.Admission

set_option autoImplicit false

namespace TaskSwarm

/-! ## The age in 64 bits -/

namespace Proposal

variable {p : Proposal} {now timeout : Int64} {request : LockRequest}

end Proposal

/-! ## Times that were read -/

namespace Node

open TaskSwarm.Action

variable {s : Settings} {past : List Entry} {id : String} {p : Proposal}

end Node

namespace Swarm

open TaskSwarm.Node

variable {w : Swarm} {h newer older : List Event} {a b : Activity} {n : PeerId} {k : String}
  {p r : Proposal} {event : Event} {e : Effect} {answer : e.Answer} {now t : Int64}

end Swarm

end TaskSwarm
