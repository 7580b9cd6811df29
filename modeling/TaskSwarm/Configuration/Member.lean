/-
From settings to a node.
-/
import TaskSwarm.Configuration.Basic
import TaskSwarm.Swarm.World

set_option autoImplicit false

namespace TaskSwarm.Configuration

/-- What runs the tasks of a node. -/
def taskExecutor (c : Configuration) : Executor :=
  match c.executor.kind with
  | .simulated => .simulation c.executor.simulatedDelay none none
  | .docker => .container ⟨c.executor.binary, c.executor.workDir, c.coordinator.inbox⟩

/-- What a node is told about itself. -/
def settings (c : Configuration) (peer : PeerId) : Settings :=
  ⟨peer, c.coordinator.claimJitter, c.coordinator.requestTimeout, c.coordinator.inbox⟩

/-- A node at its start. -/
def member (c : Configuration) (peer : PeerId) : Member :=
  ⟨c.settings peer, .empty c.capabilities c.coordinator.lockTimeout, c.taskExecutor, []⟩

end TaskSwarm.Configuration
