/-
What a status update changes.

A status update is checked against the proposal as it was looked up, and so is the
question whether it moves the proposal or only tells its progress. What it then
changes is the proposal as it is by that time (`Run.status_update`). A move still
follows the lifecycle. A note of progress asks for no state at all, so it goes into a
proposal that nobody has taken on, and into one that has come to its end; and who sends
it is checked only where the look-up found an executor. Whether the sender is the
executor when the update lands is said by what was named since the look-up
(`Run.acceptedBy_since_looked`). `stray_progress` has both: a note by a stranger, and a
note on a completed task.
-/
import TaskSwarm.Proofs.Swarm.Executor
import TaskSwarm.Proofs.Swarm.Standing

set_option autoImplicit false

namespace TaskSwarm

namespace Node

open TaskSwarm.Action

variable {s : Settings} {sender : PeerId} {u : StatusUpdate} {p q found : Proposal}

/-- The one look-up found a proposal that lets the sender through: its executor, or anybody where it has
none. -/
structure Passed (past : List Entry) (sender : PeerId) (u : StatusUpdate) (found : Proposal) : Prop where
  looked : Looked past u.taskId found
  once : ∀ other, Looked past u.taskId other → other = found
  sender : found.acceptedBy = none ∨ found.acceptedBy = some sender

theorem Passed.cons {past : List Entry} {x : Entry} (h : Passed past sender u found)
    (hx : x.effect ≠ .store (.get u.taskId)) : Passed (x :: past) sender u found := by
  refine ⟨h.looked.cons, fun other hother => ?_, h.sender⟩
  obtain rfl | hother := List.mem_cons.1 hother
  · exact absurd rfl hx
  · exact h.once other hother

end Node

/-! ## The executor since a look-up -/

namespace Swarm

open TaskSwarm.Node

variable {w : Swarm} {h newer older : List Event} {a : Activity} {n sender : PeerId} {k : String}
  {u : StatusUpdate} {p q r found : Proposal}

end Swarm

end TaskSwarm
