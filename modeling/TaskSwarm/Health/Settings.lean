/-
How closely a node watches its peers.
-/
import TaskSwarm.Document.Codec

set_option autoImplicit false

namespace TaskSwarm

/-- The rhythm in which peers are watched, in milliseconds. -/
structure HealthSettings where
  /-- Between two looks at who is there. -/
  tickInterval : Nat
  heartbeatInterval : Nat
  reconnectDelay : Nat
  /-- Attempts to reconnect before a peer is forgotten. -/
  maxRetries : Nat
  /-- The longest a single probe may take. -/
  probeTimeout : Nat
  deriving DecidableEq, Repr

namespace HealthSettings

/-- How closely a node watches that was told nothing. -/
def default : HealthSettings := ⟨1000, 30000, 5000, 3, 2000⟩

instance : Inhabited HealthSettings := ⟨default⟩

/-- How the settings are written. -/
def codec : Codec HealthSettings :=
  Fields.codec
    (.cons (.withDefault "tick-interval-ms" .nat64 default.tickInterval) <|
     .cons (.withDefault "heartbeat-interval-ms" .nat64 default.heartbeatInterval) <|
     .cons (.withDefault "reconnect-delay-ms" .nat64 default.reconnectDelay) <|
     .cons (.withDefault "max-retries" .nat32 default.maxRetries) <|
     .cons (.withDefault "probe-timeout-ms" .nat64 default.probeTimeout) .nil)
    "HealthConfig"
    (fun (tick, heartbeat, reconnect, retries, probe, ()) => ⟨tick, heartbeat, reconnect, retries, probe⟩)
    (fun s => (s.tickInterval, s.heartbeatInterval, s.reconnectDelay, s.maxRetries, s.probeTimeout, ()))

/-- The time between two looks, which is never zero. -/
def tickPeriod (s : HealthSettings) : Nat := max s.tickInterval 1

/-- The time between two heartbeats, which is never zero. -/
def heartbeatPeriod (s : HealthSettings) : Nat := max s.heartbeatInterval 1

end HealthSettings

end TaskSwarm
