/-
A watched network.

One node watches its peers over a network, in virtual time: it looks who is
there in a fixed rhythm, and its heartbeats and attempts to reconnect report to
the monitor when they are due. What the monitor tells may be kept in a log.
-/
import TaskSwarm.Event.Log
import TaskSwarm.Health.Monitor
import TaskSwarm.Health.Settings
import TaskSwarm.Swarm.Network

set_option autoImplicit false

namespace TaskSwarm

/-- What is due at a set time. -/
inductive WatchAlarm
  | tick
  | heartbeat (peer : PeerId) (generation : Nat)
  | reconnect (peer : PeerId) (generation : Nat)
  deriving DecidableEq, Repr

/-- A node that watches its peers. -/
structure Watch where
  peer : PeerId
  settings : HealthSettings
  network : Network
  clock : Nat
  /-- The time that the node reads. -/
  time : Int64
  /-- Alarms with their times, earliest first. -/
  alarms : List (Nat × WatchAlarm)
  /-- The monitor, until it is stopped. -/
  monitor : Option Monitor
  /-- The events it has told, oldest first. -/
  told : List NodeEvent
  files : Files
  /-- The directory of the log, if one is kept. -/
  log : Option String

namespace Watch

/-- Puts an alarm after those of the same time and before later ones. -/
def insertAlarm (time : Nat) (a : WatchAlarm) : List (Nat × WatchAlarm) → List (Nat × WatchAlarm)
  | [] => [(time, a)]
  | (t, b) :: rest => if t ≤ time then (t, b) :: insertAlarm time a rest else (time, a) :: (t, b) :: rest

/-- Sets an alarm. -/
def setAlarm (w : Watch) (delay : Nat) (a : WatchAlarm) : Watch :=
  { w with alarms := insertAlarm (w.clock + delay) a w.alarms }

/-- Starts to watch; the first look is due at once. -/
def start (peer : PeerId) (settings : HealthSettings) (network : Network) (time : Int64) (files : Files)
    (log : Option String) : Outcome Watch := do
  let files ←
    match log with
    | some directory => (EventLog.create files directory peer).mapError .io
    | none => .ok files
  return ⟨peer, settings, network, 0, time, [(0, .tick)], some (.new settings.maxRetries), [], files, log⟩

/-- Adds an event to the log, if one is kept. -/
def record (w : Watch) (e : NodeEvent) : Files :=
  match w.log with
  | some directory =>
    (EventLog.write w.files directory ⟨.ofMillis w.time.toInt, w.peer, e⟩).toOption.getD w.files
  | none => w.files

/-- Does what the monitor wants done. -/
def perform (w : Watch) : List MonitorOutput → Watch
  | [] => w
  | .tell e :: rest => { w with told := w.told ++ [e], files := w.record e }.perform rest
  | .startHeartbeat peer generation :: rest =>
    (w.setAlarm w.settings.heartbeatPeriod (.heartbeat peer generation)).perform rest
  | .startReconnect peer generation :: rest =>
    (w.setAlarm w.settings.reconnectDelay (.reconnect peer generation)).perform rest

/-- Tells the monitor something. -/
def inform (w : Watch) (i : MonitorInput) : Watch :=
  match w.monitor with
  | none => w
  | some m =>
    let (m, out) := m.step w.time i
    { w with monitor := some m }.perform out

/-- What an alarm does. -/
def ring (w : Watch) : WatchAlarm → Watch
  | .tick => (w.inform (.observed (w.network.livePeers w.peer))).setAlarm w.settings.tickPeriod .tick
  | .heartbeat peer generation =>
    if (w.monitor.bind fun m => m.heartbeats.get? peer) ≠ some generation then w
    else if (w.network.livePeers w.peer).contains peer then
      (w.inform (.heartbeat peer generation (some 0))).setAlarm w.settings.heartbeatPeriod
        (.heartbeat peer generation)
    else w.inform (.heartbeat peer generation none)
  | .reconnect peer generation =>
    let outcome : Outcome Unit :=
      match w.network.connectFault? w.peer peer with
      | some fault => .error (fault.toError peer)
      | none => .ok ()
    w.inform (.reconnect peer generation outcome)

/-- Lets every alarm ring that is due before a time. -/
def untilTime (deadline : Nat) : Nat → Watch → Watch
  | 0, w => w
  | fuel + 1, w =>
    match w.alarms with
    | (time, a) :: rest =>
      if time < deadline then
        untilTime deadline fuel ({ w with clock := max w.clock time, alarms := rest }.ring a)
      else w
    | [] => w

/-- More alarms than ring in any time that is waited for. -/
def patience : Nat := 10000000

/-- Lets some milliseconds pass. What is due at the very end of them is still to come. -/
def pass (w : Watch) (millis : Nat) : Watch :=
  let deadline := w.clock + millis
  { untilTime deadline patience w with clock := deadline }

/-- Lets everything happen that is due by now. -/
def settle (w : Watch) : Watch := untilTime (w.clock + 1) patience w

/-- Asks the monitor something. It answers before it takes in what is due by now. -/
def ask {α : Type} (w : Watch) (question : Monitor → α) : Watch × Outcome α :=
  match w.monitor with
  | some m => (w.settle, .ok (question m))
  | none => (w, .error .channelClosed)

/-- Stops the monitor. -/
def stop (w : Watch) : Watch × Outcome Unit :=
  match w.monitor with
  | some _ => ({ w with monitor := none, alarms := [] }, .ok ())
  | none => (w, .error .channelClosed)

/-- The events told since this was last asked. -/
def takeTold (w : Watch) : List NodeEvent × Watch := (w.told, { w with told := [] })

end Watch

end TaskSwarm
