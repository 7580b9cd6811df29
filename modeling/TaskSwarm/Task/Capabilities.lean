/-
What a task needs and what a node offers.

A task fits a node if the node offers at least what the task needs of every
resource and has a slot free.
-/
import TaskSwarm.Document.Codec

set_option autoImplicit false

namespace TaskSwarm

/-! ## Requirements -/

/-- The resources a task needs. -/
structure Requirements where
  cpu : Float
  memory : Float
  bandwidth : Float
  storage : Float
  deriving DecidableEq, Repr

namespace Requirements

/-- What a task needs that does not say so. -/
def default : Requirements := ⟨1.0, 512.0, 1.0, 1.0⟩

instance : Inhabited Requirements := ⟨default⟩

/-- How requirements are written. -/
def codec : Codec Requirements :=
  Fields.codec
    (.cons (.withDefault "cpu" .float default.cpu) <|
     .cons (.withDefault "memory" .float default.memory) <|
     .cons (.withDefault "bandwidth" .float default.bandwidth) <|
     .cons (.withDefault "storage" .float default.storage) .nil)
    "Requirements"
    (fun (cpu, memory, bandwidth, storage, ()) => ⟨cpu, memory, bandwidth, storage⟩)
    (fun r => (r.cpu, r.memory, r.bandwidth, r.storage, ()))

/-- The requirements under their names. -/
def entries (r : Requirements) : List (String × Float) :=
  [("cpu", r.cpu), ("memory", r.memory), ("bandwidth", r.bandwidth), ("storage", r.storage)]

/-- The first requirement that is negative or no finite number. -/
def firstImpossible (r : Requirements) : Option String :=
  (r.entries.find? fun e => !Decimal.isFinite e.2 || e.2 < 0.0).map Prod.fst

end Requirements

/-! ## Capabilities -/

/-- The resources a node offers. -/
structure Capabilities where
  cpu : Float
  memory : Float
  bandwidth : Float
  storage : Float
  /-- How many tasks may hold a slot at once. -/
  maxTasks : Nat
  deriving DecidableEq, Repr

/-- New values for some of the capabilities. -/
structure CapabilitiesUpdate where
  cpu : Option Float
  memory : Option Float
  bandwidth : Option Float
  storage : Option Float
  maxTasks : Option Nat
  deriving DecidableEq, Repr

namespace CapabilitiesUpdate

/-- How updates are written. -/
def codec : Codec CapabilitiesUpdate :=
  Fields.codec
    (.cons (.optional "cpu" .float) <|
     .cons (.optional "memory" .float) <|
     .cons (.optional "bandwidth" .float) <|
     .cons (.optional "storage" .float) <|
     .cons (.optional "maxConcurrentTasks" .size) .nil)
    "CapabilitiesUpdate"
    (fun (cpu, memory, bandwidth, storage, maxTasks, ()) =>
      ⟨cpu, memory, bandwidth, storage, maxTasks⟩)
    (fun u => (u.cpu, u.memory, u.bandwidth, u.storage, u.maxTasks, ()))

end CapabilitiesUpdate

namespace Capabilities

/-- What a node offers that does not say so. -/
def default : Capabilities := ⟨4.0, 8192.0, 100.0, 100.0, 5⟩

instance : Inhabited Capabilities := ⟨default⟩

/-- How capabilities are written. -/
def codec : Codec Capabilities :=
  Fields.codec
    (.cons (.withDefault "cpu" .float default.cpu) <|
     .cons (.withDefault "memory" .float default.memory) <|
     .cons (.withDefault "bandwidth" .float default.bandwidth) <|
     .cons (.withDefault "storage" .float default.storage) <|
     .cons ((RecordField.withDefault "max-concurrent-tasks" .size default.maxTasks).alsoNamed
        "maxConcurrentTasks") .nil)
    "Capabilities"
    (fun (cpu, memory, bandwidth, storage, maxTasks, ()) =>
      ⟨cpu, memory, bandwidth, storage, maxTasks⟩)
    (fun c => (c.cpu, c.memory, c.bandwidth, c.storage, c.maxTasks, ()))

/-- Whether the node offers enough of every resource. -/
def fits (c : Capabilities) (r : Requirements) : Bool :=
  r.cpu ≤ c.cpu && r.memory ≤ c.memory && r.bandwidth ≤ c.bandwidth && r.storage ≤ c.storage

/-- Whether the node can take a task on beside `active` others. -/
def canHandle (c : Capabilities) (r : Requirements) (active : Nat) : Bool :=
  c.fits r && active < c.maxTasks

/-- The capabilities with the values an update gives. -/
def merge (c : Capabilities) (u : CapabilitiesUpdate) : Capabilities where
  cpu := u.cpu.getD c.cpu
  memory := u.memory.getD c.memory
  bandwidth := u.bandwidth.getD c.bandwidth
  storage := u.storage.getD c.storage
  maxTasks := u.maxTasks.getD c.maxTasks

end Capabilities

end TaskSwarm
