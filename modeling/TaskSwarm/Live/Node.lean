/-
A node on a machine.

The programs of a node are played through here for real: their effects change
the one store, go out on connections, or touch files. Programs run side by side,
and only single commands to the store are atomic, which is all they rely on.

A live node starts no other programs, so that a task for a container fails; a
simulated task takes its time and succeeds.
-/
import Std.Async.Signal
import TaskSwarm.Configuration.Member
import TaskSwarm.Event.Log
import TaskSwarm.Health.Monitor
import TaskSwarm.Live.Connection

set_option autoImplicit false

namespace TaskSwarm.Live

open Std.Async (Async AsyncTask background)
open Std.Async.TCP.Socket (Client Server)

/-- A node that is running. -/
structure LiveNode where
  configuration : Configuration
  settings : Settings
  directory : Directory
  store : IO.Ref Store
  monitor : IO.Ref Monitor
  /-- Says what has happened. -/
  tell : NodeEvent → IO Unit

namespace LiveNode

/-- A node at its start. -/
def new (c : Configuration) (peer : PeerId) (tell : NodeEvent → IO Unit) : IO LiveNode := do
  let m := c.member peer
  return ⟨c, m.settings, ⟨peer, c.node.peers⟩, ← IO.mkRef m.store, ← IO.mkRef (.new c.health.maxRetries), tell⟩

/-- The longest wait for a connection. -/
def probeTimeout (n : LiveNode) : Nat := n.configuration.health.probeTimeout

/-! ## Effects -/

/-- Decides a command to the store, and tells what has happened. -/
def command (n : LiveNode) (c : Command) : IO c.Reply := do
  let (reply, events) ← n.store.modifyGet fun s =>
    let (s, reply, events) := s.step c
    ((reply, events), s)
  events.forM n.tell
  return reply

/-- Runs a task. -/
def execute (n : LiveNode) : Async (Outcome Json) := do
  match n.configuration.taskExecutor with
  | .simulated delay outcome =>
    sleep delay
    return outcome
  | .container runtime =>
    return .error (.execution s!"Failed to start {runtime.binary}: Function not implemented (os error 38)")

/-- Makes a call and reads a line. -/
def ask (n : LiveNode) (c : Call) : Async (Except CallFault ByteArray) :=
  call n.directory n.probeTimeout .requestTimedOut true c

/-- Answers an effect of a program. -/
partial def answer (n : LiveNode) : (e : Effect) → Async e.Answer
  | .store c => n.command c
  | .emit e => n.tell e
  | .now => now
  | .freshId => freshId
  | .freshToken => freshToken
  | .random bound => IO.rand 0 bound
  | .knownPeers => return n.directory.knownPeers
  | .call c => n.ask c
  | .callAll cs => return (← Async.concurrentlyAll (cs.map n.ask).toArray).toList
  | .transfer c => return (← call n.directory n.probeTimeout .transferTimedOut false c).map fun _ => ()
  | .sleep millis => sleep millis
  | .execute _ => n.execute
  | .readFile path => attempt (IO.FS.readBinFile path)
  | .makeDirectories path => attempt (IO.FS.createDirAll path)
  | .writeFile path bytes => attempt (IO.FS.writeBinFile path bytes)
  | .spawn job => background (t := AsyncTask) ((Node.runJob n.settings job).play n.answer)

/-- Plays a program through. -/
def run {α : Type} (n : LiveNode) (p : Program α) : Async α := p.play n.answer

/-! ## Connections -/

/-- Serves one connection. -/
def serve (n : LiveNode) (c : Client) : Async Unit := do
  let isWhole protocol := protocol == Protocol.file
  match ← listenTo c Node.protocols isWhole with
  | none => return ()
  | some (hello, bytes) =>
    match Node.serve n.settings hello.peer hello.protocol bytes with
    | none => return ()
    | some program =>
      c.send (← n.run program)
      c.shutdown

/-- Serves one connection after the other, each by itself. -/
partial def serveAll (n : LiveNode) (s : Server) : Async Unit := do
  try background (t := AsyncTask) (n.serve (← s.accept))
  catch _ => return ()
  n.serveAll s

/-! ## The monitor -/

mutual

/-- Tells the monitor something, and does what it wants done. -/
partial def inform (n : LiveNode) (i : MonitorInput) : Async Unit := do
  let time ← now
  let out ← n.monitor.modifyGet fun m =>
    let (m, out) := m.step time i
    (out, m)
  out.forM n.carryOut

/-- Does what the monitor wants done. -/
partial def carryOut (n : LiveNode) : MonitorOutput → Async Unit
  | .tell e => n.tell e
  | .startHeartbeat peer generation => background (t := AsyncTask) (n.beat peer generation)
  | .startReconnect peer generation => background (t := AsyncTask) do
    sleep n.configuration.health.reconnectDelay
    match ← probe n.directory n.probeTimeout peer with
    | some fault => n.inform (.reconnect peer generation (.error (fault.toError peer)))
    | none => n.inform (.reconnect peer generation (.ok ()))

/-- The heartbeat of a peer, until it is replaced or the peer does not answer. -/
partial def beat (n : LiveNode) (peer : PeerId) (generation : Nat) : Async Unit := do
  sleep n.configuration.health.heartbeatPeriod
  if (← n.monitor.get).heartbeats.get? peer = some generation then
    let started ← IO.monoMsNow
    match ← probe n.directory n.probeTimeout peer with
    | some _ => n.inform (.heartbeat peer generation none)
    | none =>
      n.inform (.heartbeat peer generation (some ((← IO.monoMsNow) - started)))
      n.beat peer generation

end

/-- Looks who is there, over and over. -/
partial def watch (n : LiveNode) : Async Unit := do
  n.inform (.observed (← livePeers n.directory n.probeTimeout))
  sleep n.configuration.health.tickPeriod
  n.watch

/-! ## From outside -/

/-- Listens at an address and goes to work; the address the node got. -/
def start (n : LiveNode) (wanted : SocketAddress) : IO (Except IoFault SocketAddress) :=
  attempt do
    let s ← Server.mk
    s.bind (systemAddress wanted)
    s.listen 128
    let address ← s.getSockName
    let _ ← (n.serveAll s).asTask
    let _ ← n.watch.asTask
    return addressOf address

/-- Has the node propose a task; the id of the proposal. -/
def propose (n : LiveNode) (task : TaskSpec) : IO (Outcome String) := do
  let created ← (n.run (Node.create n.settings task).run).block
  return created.map Proposal.id

end LiveNode

/-- Waits until somebody interrupts. -/
def interruption : IO Unit := do
  let waiter ← Std.Async.Signal.Waiter.mk .sigint false
  let _ ← (← waiter.wait).block

end TaskSwarm.Live
