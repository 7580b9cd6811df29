/-
The connection monitor.

The monitor keeps a record for each peer it has met. A connected peer has a
heartbeat going, a lost one an attempt to reconnect; after too many attempts the
peer is forgotten. Heartbeats and attempts go on by themselves and report back
under the number they were started with, so that the report of one that has been
replaced is told apart and dropped.
-/
import TaskSwarm.Event.Basic

set_option autoImplicit false

namespace TaskSwarm

/-- What the monitor knows. -/
structure Monitor where
  /-- Attempts to reconnect before a peer is forgotten. -/
  maxRetries : Nat
  connections : SortedMap PeerConnection
  /-- The numbers of the heartbeats that are going, by peer. -/
  heartbeats : SortedMap Nat
  /-- The numbers of the attempts to reconnect that are pending, by peer. -/
  reconnects : SortedMap Nat
  /-- The number given out last. -/
  generation : Nat

/-- What the monitor is told. -/
inductive MonitorInput
  /-- These peers can be reached. -/
  | observed (live : List PeerId)
  /-- A heartbeat took so long, or went without an answer. -/
  | heartbeat (peer : PeerId) (generation : Nat) (latency : Option Nat)
  | reconnect (peer : PeerId) (generation : Nat) (outcome : Outcome Unit)

/-- What the monitor does. -/
inductive MonitorOutput
  | tell (event : NodeEvent)
  | startHeartbeat (peer : PeerId) (generation : Nat)
  | startReconnect (peer : PeerId) (generation : Nat)
  deriving DecidableEq

namespace Monitor

/-- A monitor that has met nobody. -/
def new (maxRetries : Nat) : Monitor := ⟨maxRetries, .empty, .empty, .empty, 0⟩

/-- Whether a peer is known and connected. -/
def isConnected (m : Monitor) (peer : PeerId) : Bool :=
  (m.connections.get? peer).any PeerConnection.isConnected

/-- Starts a heartbeat, in place of one that may be going. -/
def startHeartbeat (m : Monitor) (peer : PeerId) : Monitor × MonitorOutput :=
  let generation := m.generation + 1
  ({ m with generation := generation, heartbeats := m.heartbeats.insert peer generation },
    .startHeartbeat peer generation)

/-- Sets an attempt to reconnect going, in place of one that may be pending. -/
def startReconnect (m : Monitor) (peer : PeerId) : Monitor × MonitorOutput :=
  let generation := m.generation + 1
  ({ m with generation := generation, reconnects := m.reconnects.insert peer generation },
    .startReconnect peer generation)

/-- A peer is there. -/
def markConnected (m : Monitor) (now : Int64) (peer : PeerId) : Monitor × List MonitorOutput :=
  let before := (m.connections.get? peer).getD (.new peer now)
  let connection := { before with status := .connected, reconnectAttempts := 0, lastSeen := now }
  let m := { m with
    connections := m.connections.insert peer connection, reconnects := m.reconnects.erase peer }
  let (m, started) := m.startHeartbeat peer
  (m, [started, .tell (.peerConnected peer connection)])

/-- A peer is not there: it is forgotten, or there will be another attempt. -/
def handleDisconnect (m : Monitor) (peer : PeerId) : Monitor × List MonitorOutput :=
  let m := { m with heartbeats := m.heartbeats.erase peer }
  match m.connections.get? peer with
  | none => (m, [])
  | some c =>
    let told := if c.isConnected then [.tell (.peerDisconnected peer c.reconnectAttempts)] else []
    if m.maxRetries ≤ c.reconnectAttempts then
      ({ m with connections := m.connections.erase peer }, told)
    else
      let lost := { c with status := .disconnected, reconnectAttempts := c.reconnectAttempts + 1 }
      let (m, started) := { m with connections := m.connections.insert peer lost }.startReconnect peer
      (m, told ++ [started])

/-- Does something for one peer after the other. -/
def forEach (f : Monitor → PeerId → Monitor × List MonitorOutput) (m : Monitor) :
    List PeerId → Monitor × List MonitorOutput
  | [] => (m, [])
  | peer :: peers =>
    let (m, out) := f m peer
    let (m, rest) := forEach f m peers
    (m, out ++ rest)

/-- Takes in who can be reached. -/
def observe (m : Monitor) (now : Int64) (live : List PeerId) : Monitor × List MonitorOutput :=
  let seen : SortedMap Unit := .ofList (live.map fun peer => (peer, ()))
  let (m, met) := m.forEach (fun m peer => m.markConnected now peer)
    (seen.keys.filter fun peer => !m.isConnected peer)
  let (m, lost) := m.forEach handleDisconnect
    (m.connections.keys.filter fun peer => m.isConnected peer && !seen.contains peer)
  (m, met ++ lost)

/-- Takes in what came of a heartbeat. -/
def heartbeat (m : Monitor) (now : Int64) (peer : PeerId) (generation : Nat) (latency : Option Nat) :
    Monitor × List MonitorOutput :=
  -- The report of a heartbeat that was replaced says nothing about the one that is going.
  if m.heartbeats.get? peer ≠ some generation then (m, [])
  else
    match m.connections.get? peer with
    | none => (m, [])
    | some c =>
      if !c.isConnected then (m, [])
      else
        match latency with
        | some latency =>
          let metrics := c.metrics.recordHeartbeat true (some latency)
          let c := { c with metrics := metrics, lastSeen := now }
          ({ m with connections := m.connections.insert peer c }, [.tell (.heartbeat peer metrics)])
        | none =>
          let c := { c with metrics := c.metrics.recordHeartbeat false none }
          handleDisconnect { m with connections := m.connections.insert peer c } peer

/-- Takes in what came of an attempt to reconnect. -/
def reconnect (m : Monitor) (now : Int64) (peer : PeerId) (generation : Nat) (outcome : Outcome Unit) :
    Monitor × List MonitorOutput :=
  if m.reconnects.get? peer ≠ some generation then (m, [])
  else
    let m := { m with reconnects := m.reconnects.erase peer }
    match m.connections.get? peer with
    | none => (m, [])
    | some c =>
      if c.isConnected then (m, [])
      else
        match outcome with
        | .ok () => m.markConnected now peer
        | .error e =>
          let (m, out) := m.handleDisconnect peer
          (m, .tell (.reconnectFailed peer e.message) :: out)

/-- Takes in what the monitor is told: the monitor after it, and what it does. -/
def step (m : Monitor) (now : Int64) : MonitorInput → Monitor × List MonitorOutput
  | .observed live => m.observe now live
  | .heartbeat peer generation latency => m.heartbeat now peer generation latency
  | .reconnect peer generation outcome => m.reconnect now peer generation outcome

/-- All records, by peer. -/
def records (m : Monitor) : List PeerConnection := m.connections.values

/-- The metrics of a peer. -/
def metrics? (m : Monitor) (peer : PeerId) : Option PeerMetrics :=
  (m.connections.get? peer).map fun c => c.metrics

/-- A summary of all records. -/
def stats (m : Monitor) : NetworkStats := .ofConnections m.records

end Monitor

end TaskSwarm
