/-
Executors.

A node runs tasks in containers, or only acts as if: then a task takes a while
and comes to a fixed result.
-/
import TaskSwarm.Execution.Host

set_option autoImplicit false

namespace TaskSwarm

/-- How a node runs tasks. -/
inductive Executor
  /-- After some milliseconds every task has the same result. -/
  | simulated (delay : Nat) (outcome : Outcome Json)
  | container (runtime : ContainerRuntime)

namespace Executor

/-- The result of a task that was only simulated. -/
def simulatedResult : Json :=
  .object [("status", .str "success"), ("data", .str "Task completed successfully")]

/-- A simulation with a result of its own, or a failure. -/
def simulation (delay : Nat) (result : Option Json) (failure : Option String) : Executor :=
  .simulated delay
    (match failure with
      | some text => .error (.execution text)
      | none => .ok (result.getD simulatedResult))

/-- The name of an executor. -/
def name : Executor → String
  | simulated .. => "simulated"
  | container _ => "docker"

/-- The milliseconds a task takes. -/
def duration : Executor → Nat
  | simulated delay _ => delay
  | container _ => 0

/-- The files after a task, and what it came to. -/
def run (e : Executor) (p : Proposal) (fs : Files) : Files × Outcome Json :=
  match e with
  | simulated _ outcome => (fs, outcome)
  | container runtime => runtime.execute Host.run p fs

end Executor

end TaskSwarm
