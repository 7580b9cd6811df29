/-
The lifecycle of a proposal.

A proposal starts out PROPOSED, is LOCKED by the peer that wants it, ACCEPTED
by its proposer, RUNNING on the peer and ends in one of three ways. `canBecome`
is the graph; `LOCKED → LOCKED` is the new grant of a lock that has expired,
`LOCKED → PROPOSED` and `ACCEPTED → PROPOSED` undo a claim that failed, and
ACCEPTED may end without RUNNING, because the notice of that state may get
lost. A terminal state has no way out (`canBecome_of_terminal`).
-/
import TaskSwarm.Document.Codec

set_option autoImplicit false

namespace TaskSwarm

/-- The states of a proposal. -/
inductive TaskState
  | proposed | locked | accepted | running | completed | failed | cancelled
  deriving DecidableEq, Repr, Inhabited

namespace TaskState

/-- The states, in the order of a life. -/
def all : List TaskState := [proposed, locked, accepted, running, completed, failed, cancelled]

/-- The name of a state. -/
def name : TaskState → String
  | proposed => "PROPOSED"
  | locked => "LOCKED"
  | accepted => "ACCEPTED"
  | running => "RUNNING"
  | completed => "COMPLETED"
  | failed => "FAILED"
  | cancelled => "CANCELLED"

/-- How a state is written. -/
def codec : Codec TaskState := .oneOf (all.map fun s => (s.name, s))

/-- States that never change again. -/
def isTerminal : TaskState → Bool
  | completed | failed | cancelled => true
  | _ => false

/-- Whether a proposal may go from one state to another. -/
def canBecome : TaskState → TaskState → Bool
  | proposed, locked => true
  | locked, locked | locked, proposed | locked, accepted => true
  | accepted, proposed | accepted, running | accepted, completed | accepted, failed => true
  | running, completed | running, failed => true
  | proposed, cancelled | locked, cancelled | accepted, cancelled | running, cancelled => true
  | _, _ => false

theorem canBecome_of_terminal {s t : TaskState} (h : s.isTerminal = true) :
    s.canBecome t = false := by
  cases s <;> first | (cases t <;> rfl) | simp [isTerminal] at h

end TaskState

end TaskSwarm
