/-
Settings of a node.

Settings come in sections, and each section and each setting may be left out;
it then has the value it has in `Configuration.default`. Settings are written
in full, save those that may have no value at all and have none.
-/
import TaskSwarm.Health.Settings
import TaskSwarm.Task.Proposal
import TaskSwarm.Wire.Address

set_option autoImplicit false

namespace TaskSwarm

/-! ## Sections -/

/-- Who a node is, where it listens and whom it knows. -/
structure NodeSection where
  /-- Its name; made up when it starts if it has none. -/
  peer : Option PeerId
  listen : SocketAddress
  peers : SortedMap SocketAddress
  deriving DecidableEq

/-- How a node deals with proposals. -/
structure CoordinatorSection where
  /-- For how many milliseconds a lock keeps others out. -/
  lockTimeout : Int64
  /-- The longest wait, in milliseconds, before a proposal is claimed. -/
  claimJitter : Nat
  /-- The milliseconds after which a request is given up. -/
  requestTimeout : Nat
  /-- How many commands may wait for the store. -/
  channelBuffer : Nat
  /-- Where files of proposals arrive. -/
  inbox : String
  deriving DecidableEq, Repr

/-- How tasks are run. -/
inductive ExecutorKind
  | simulated
  | docker
  deriving DecidableEq, Repr

/-- What runs tasks. -/
structure ExecutorSection where
  kind : ExecutorKind
  /-- The milliseconds a simulated task takes. -/
  simulatedDelay : Nat
  binary : String
  /-- The parent of the directories of tasks. -/
  workDir : String
  deriving DecidableEq, Repr

/-- Where events go. -/
structure EventsSection where
  /-- The directory for the log; there is no log without one. -/
  logDir : Option String
  deriving DecidableEq, Repr

/-! ## How sections are written -/

/-- A setting that may have no value, and is left out then. -/
def RecordField.absentable {α : Type} (name : String) (codec : Codec α) : RecordField (Option α) :=
  (RecordField.withDefault name codec.option none).omitting Option.isNone

namespace NodeSection

/-- A node without a name of its own that knows nobody. -/
def default : NodeSection := ⟨none, .default, .empty⟩

/-- How the section is written. -/
def codec : Codec NodeSection :=
  Fields.codec
    (.cons (.absentable "peer-id" .string) <|
     .cons (.withDefault "listen" SocketAddress.codec default.listen) <|
     .cons (.withDefault "peers" (.map SocketAddress.codec) default.peers) .nil)
    "NodeConfig"
    (fun (peer, listen, peers, ()) => ⟨peer, listen, peers⟩)
    (fun s => (s.peer, s.listen, s.peers, ()))

end NodeSection

namespace CoordinatorSection

/-- What holds if nothing is said. -/
def default : CoordinatorSection := ⟨5000, 1000, 30000, 256, "inbox"⟩

/-- How the section is written. -/
def codec : Codec CoordinatorSection :=
  Fields.codec
    (.cons (.withDefault "lock-timeout-ms" .int64 default.lockTimeout) <|
     .cons (.withDefault "claim-jitter-ms" .nat64 default.claimJitter) <|
     .cons (.withDefault "request-timeout-ms" .nat64 default.requestTimeout) <|
     .cons (.withDefault "channel-buffer" .size default.channelBuffer) <|
     .cons (.withDefault "inbox-dir" Container.pathCodec default.inbox) .nil)
    "CoordinatorConfig"
    (fun (lockTimeout, claimJitter, requestTimeout, channelBuffer, inbox, ()) =>
      ⟨lockTimeout, claimJitter, requestTimeout, channelBuffer, inbox⟩)
    (fun s => (s.lockTimeout, s.claimJitter, s.requestTimeout, s.channelBuffer, s.inbox, ()))

end CoordinatorSection

/-- How the kinds of executors are written. -/
def ExecutorKind.codec : Codec ExecutorKind :=
  .oneOf [("simulated", .simulated), ("docker", .docker)]

namespace ExecutorSection

/-- What holds if nothing is said. -/
def default : ExecutorSection := ⟨.simulated, 5000, "docker", "."⟩

/-- How the section is written. -/
def codec : Codec ExecutorSection :=
  Fields.codec
    (.cons (.withDefault "kind" ExecutorKind.codec default.kind) <|
     .cons (.withDefault "simulated-delay-ms" .nat64 default.simulatedDelay) <|
     .cons (.withDefault "docker-binary" .string default.binary) <|
     .cons (.withDefault "work-dir" Container.pathCodec default.workDir) .nil)
    "ExecutorConfig"
    (fun (kind, simulatedDelay, binary, workDir, ()) => ⟨kind, simulatedDelay, binary, workDir⟩)
    (fun s => (s.kind, s.simulatedDelay, s.binary, s.workDir, ()))

end ExecutorSection

namespace EventsSection

/-- No log. -/
def default : EventsSection := ⟨none⟩

/-- How the section is written. -/
def codec : Codec EventsSection :=
  Fields.codec (.cons (.absentable "log-dir" Container.pathCodec) .nil)
    "EventsConfig" (fun (logDir, ()) => ⟨logDir⟩) (fun s => (s.logDir, ()))

end EventsSection

/-! ## All settings -/

/-- All settings of a node. -/
structure Configuration where
  node : NodeSection
  capabilities : Capabilities
  coordinator : CoordinatorSection
  health : HealthSettings
  executor : ExecutorSection
  events : EventsSection
  /-- How much is logged, unless the command line says so. -/
  logLevel : Option String
  deriving DecidableEq

namespace Configuration

/-- The settings of a node that was told nothing. -/
def default : Configuration :=
  ⟨.default, .default, .default, .default, .default, .default, none⟩

instance : Inhabited Configuration := ⟨default⟩

/-- How settings are written. -/
def codec : Codec Configuration :=
  Fields.codec
    (.cons (.withDefault "node" NodeSection.codec default.node) <|
     .cons (.withDefault "capabilities" Capabilities.codec default.capabilities) <|
     .cons (.withDefault "coordinator" CoordinatorSection.codec default.coordinator) <|
     .cons (.withDefault "health" HealthSettings.codec default.health) <|
     .cons (.withDefault "executor" ExecutorSection.codec default.executor) <|
     .cons (.withDefault "events" EventsSection.codec default.events) <|
     .cons (.absentable "log-level" .string) .nil)
    "Config"
    (fun (node, capabilities, coordinator, health, executor, events, logLevel, ()) =>
      ⟨node, capabilities, coordinator, health, executor, events, logLevel⟩)
    (fun c => (c.node, c.capabilities, c.coordinator, c.health, c.executor, c.events, c.logLevel, ()))

end Configuration

end TaskSwarm
