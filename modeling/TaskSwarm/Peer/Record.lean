/-
What a node knows of its peers.

Reliability is a moving average of heartbeats: the newest one counts a fifth.
-/
import TaskSwarm.Error

set_option autoImplicit false

namespace TaskSwarm

/-! ## Metrics -/

/-- What a peer's line carries in either direction. -/
structure Bandwidth where
  up : Float
  down : Float
  deriving DecidableEq, Repr

/-- How bandwidths are written. -/
def Bandwidth.codec : Codec Bandwidth :=
  Fields.codec
    (.cons (.required "up" .float) <| .cons (.required "down" .float) .nil)
    "Bandwidth" (fun (up, down, ()) => ⟨up, down⟩) (fun b => (b.up, b.down, ()))

/-- How well a peer answers. -/
structure PeerMetrics where
  /-- Milliseconds to the answer of the last heartbeat that had one. -/
  latency : Option Nat
  /-- A moving average of heartbeats, from zero to one. -/
  reliability : Float
  bandwidth : Bandwidth
  deriving DecidableEq, Repr

namespace PeerMetrics

/-- The metrics of a peer nobody has asked yet. -/
def fresh : PeerMetrics := ⟨none, 1.0, ⟨0.0, 0.0⟩⟩

/-- How metrics are written. -/
def codec : Codec PeerMetrics :=
  Fields.codec
    (.cons (.optional "latency" .nat64) <|
     .cons (.required "reliability" .float) <|
     .cons (.required "bandwidth" Bandwidth.codec) .nil)
    "PeerMetrics"
    (fun (latency, reliability, bandwidth, ()) => ⟨latency, reliability, bandwidth⟩)
    (fun m => (m.latency, m.reliability, m.bandwidth, ()))

/-- What the newest heartbeat counts in the average. -/
def newestWeight : Float := 0.2

/-- The metrics after one more heartbeat. -/
def recordHeartbeat (m : PeerMetrics) (success : Bool) (latency : Option Nat) : PeerMetrics where
  latency := if success then latency.or m.latency else m.latency
  reliability := newestWeight * (if success then 1.0 else 0.0) + (1.0 - newestWeight) * m.reliability
  bandwidth := m.bandwidth

end PeerMetrics

/-! ## Connections -/

/-- Whether a peer can be reached. -/
inductive PeerStatus
  | connected | disconnected
  deriving DecidableEq, Repr

/-- How a status is written. -/
def PeerStatus.codec : Codec PeerStatus :=
  .oneOf [("connected", .connected), ("disconnected", .disconnected)]

/-- What is known of a peer. -/
structure PeerConnection where
  peer : PeerId
  status : PeerStatus
  lastSeen : Int64
  metrics : PeerMetrics
  reconnectAttempts : Nat
  deriving DecidableEq, Repr

namespace PeerConnection

/-- A peer that has just been met. -/
def new (peer : PeerId) (now : Int64) : PeerConnection := ⟨peer, .connected, now, .fresh, 0⟩

/-- How connections are written. -/
def codec : Codec PeerConnection :=
  Fields.codec
    (.cons (.required "peerId" .string) <|
     .cons (.required "status" PeerStatus.codec) <|
     .cons (.required "lastSeen" .int64) <|
     .cons (.required "metrics" PeerMetrics.codec) <|
     .cons (.required "reconnectAttempts" .nat32) .nil)
    "PeerConnection"
    (fun (peer, status, lastSeen, metrics, attempts, ()) => ⟨peer, status, lastSeen, metrics, attempts⟩)
    (fun c => (c.peer, c.status, c.lastSeen, c.metrics, c.reconnectAttempts, ()))

/-- Whether the peer can be reached. -/
def isConnected (c : PeerConnection) : Bool := c.status = .connected

end PeerConnection

/-! ## All of them together -/

/-- A summary of all connections. -/
structure NetworkStats where
  totalPeers : Nat
  activePeers : Nat
  averageLatency : Float
  totalBandwidthUp : Float
  totalBandwidthDown : Float
  deriving DecidableEq, Repr

namespace NetworkStats

/-- How summaries are written. -/
def codec : Codec NetworkStats :=
  Fields.codec
    (.cons (.required "totalPeers" .size) <|
     .cons (.required "activePeers" .size) <|
     .cons (.required "averageLatency" .float) <|
     .cons (.required "totalBandwidthUp" .float) <|
     .cons (.required "totalBandwidthDown" .float) .nil)
    "NetworkStats"
    (fun (total, active, latency, up, down, ()) => ⟨total, active, latency, up, down⟩)
    (fun s => (s.totalPeers, s.activePeers, s.averageLatency, s.totalBandwidthUp,
      s.totalBandwidthDown, ()))

/-- The mean of some latencies, whose sum is kept in 64 bits. -/
def meanLatency (latencies : List Nat) : Float :=
  if latencies.isEmpty then 0.0
  else Float.ofNat (latencies.foldl (· + ·) 0 % 0x10000000000000000) / Float.ofNat latencies.length

/-- The sum of some doubles, from the first to the last. -/
def total (xs : List Float) : Float := xs.foldl (· + ·) 0.0

/-- The summary of some connections. -/
def ofConnections (cs : List PeerConnection) : NetworkStats where
  totalPeers := cs.length
  activePeers := (cs.filter PeerConnection.isConnected).length
  averageLatency := meanLatency (cs.filterMap fun c => c.metrics.latency)
  totalBandwidthUp := total (cs.map fun c => c.metrics.bandwidth.up)
  totalBandwidthDown := total (cs.map fun c => c.metrics.bandwidth.down)

end NetworkStats

end TaskSwarm
