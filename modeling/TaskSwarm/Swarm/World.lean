/-
A swarm in one place.

Nodes run as threads over one network and one directory, in virtual time: what
is ready runs, one thread at a time and in the order it became ready, and the
clock only moves, to the next alarm, when nothing is. A thread runs until it has
to wait for a peer or for the clock, or has asked the store something: the answer
is there at once, but whatever else is ready goes on first. The same world is
always run the same way.
-/
import TaskSwarm.Execution.Basic
import TaskSwarm.Node.Service
import TaskSwarm.Swarm.Network
import TaskSwarm.Swarm.Script

set_option autoImplicit false

namespace TaskSwarm

/-! ## What there is -/

/-- A node and what it has told so far. -/
structure Member where
  settings : Settings
  store : Store
  executor : Executor
  /-- The events it has told, oldest first. -/
  told : List NodeEvent

/-- What a thread ends with. -/
inductive Ending
  /-- The bytes for the peer at the other end of a stream. -/
  | reply (stream : Nat) (bytes : ByteArray)
  /-- The outcome somebody outside the swarm waits for. -/
  | answer (outcome : Outcome Json)
  | over

/-- A program at work for a peer. -/
structure Thread where
  peer : PeerId
  program : Program Ending

/-- What a stream has brought; nothing as long as it is open. -/
abbrev StreamState : Type := Option (Except CallFault ByteArray)

/-- A thread that waits for streams. -/
structure Waiting where
  peer : PeerId
  streams : List (Nat × StreamState)
  resume : List (Except CallFault ByteArray) → Program Ending

/-- What happens at a set time. -/
inductive Alarm
  | wake (thread : Thread)
  | deliver (stream : Nat) (brought : Except CallFault ByteArray)

/-- Nodes, scripted peers, the network between them, and all that is going on. -/
structure World where
  /-- Milliseconds since the beginning. -/
  clock : Nat
  /-- The time that nodes read. -/
  time : Int64
  /-- The number of names given out. -/
  serial : Nat
  network : Network
  members : SortedMap Member
  scripts : SortedMap Script
  files : Files
  ready : List Thread
  waiting : List Waiting
  /-- Alarms with their times, earliest first. -/
  alarms : List (Nat × Alarm)
  answered : Option (Outcome Json)

namespace World

/-- A world without peers. -/
def empty (time : Int64) (files : Files) : World :=
  ⟨0, time, 0, .empty, .empty, .empty, files, [], [], [], none⟩

/-- The next name. -/
def fresh (w : World) : Nat × World := (w.serial, { w with serial := w.serial + 1 })

/-- Puts a thread at the end of those that are ready. -/
def start (w : World) (t : Thread) : World := { w with ready := w.ready ++ [t] }

/-- Puts an alarm after those of the same time and before later ones. -/
def insertAlarm (time : Nat) (a : Alarm) : List (Nat × Alarm) → List (Nat × Alarm)
  | [] => [(time, a)]
  | (t, b) :: rest => if t ≤ time then (t, b) :: insertAlarm time a rest else (time, a) :: (t, b) :: rest

/-- Sets an alarm. -/
def setAlarm (w : World) (delay : Nat) (a : Alarm) : World :=
  { w with alarms := insertAlarm (w.clock + delay) a w.alarms }

/-- Changes a node. -/
def update (w : World) (peer : PeerId) (f : Member → Member) : World :=
  match w.members.get? peer with
  | some m => { w with members := w.members.insert peer (f m) }
  | none => w

/-! ## Streams -/

/-- What all streams have brought, if none is open. -/
def complete (streams : List (Nat × StreamState)) : Option (List (Except CallFault ByteArray)) :=
  streams.mapM Prod.snd

/-- Notes what a stream has brought, unless it is closed. -/
def note (stream : Nat) (brought : Except CallFault ByteArray) (s : Nat × StreamState) : Nat × StreamState :=
  if s.1 = stream && s.2.isNone then (s.1, some brought) else s

/-- Hands what a stream has brought to the thread that waits for it. -/
def bring (w : World) (stream : Nat) (brought : Except CallFault ByteArray) : World :=
  let noted := w.waiting.map fun t => { t with streams := t.streams.map (note stream brought) }
  let go (t : Waiting) : Sum Waiting Thread :=
    match complete t.streams with
    | some all => .inr ⟨t.peer, t.resume all⟩
    | none => .inl t
  { w with
    waiting := noted.filterMap fun t => (go t).getLeft?
    ready := w.ready ++ noted.filterMap fun t => (go t).getRight? }

/-- Opens a stream and makes a call on it. -/
def openStream (w : World) (caller : PeerId) (call : Call) (late : CallFault) :
    World × (Nat × StreamState) :=
  let (stream, w) := w.fresh
  match w.network.dialFault? caller call.peer call.protocol with
  | some fault => (w, (stream, some (.error fault)))
  | none =>
    -- The answer or this alarm, whichever comes first, closes the stream; `note` drops the other.
    let w := w.setAlarm call.timeout (.deliver stream (.error late))
    let served := (w.members.get? call.peer).bind fun m =>
      Node.serve m.settings caller call.protocol call.bytes
    let scripted := (w.scripts.get? call.peer).filter (·.replies.contains call.protocol)
    match scripted, served with
    | some script, _ =>
      let (script, reply) := script.receive ⟨caller, call.protocol, call.bytes⟩
      let w := { w with scripts := w.scripts.insert call.peer script }
      match reply.bytes with
      | some bytes =>
        if reply.delay = 0 then (w, (stream, some (.ok bytes)))
        else (w.setAlarm reply.delay (.deliver stream (.ok bytes)), (stream, none))
      | none => (w, (stream, none))
    | none, some program =>
      let program := program.bind fun bytes => .done (.reply stream bytes)
      (w.start ⟨call.peer, program⟩, (stream, none))
    | none, none => (w, (stream, some (.error (.unsupported call.protocol))))

/-- Opens a stream for each call. -/
def openStreams (w : World) (caller : PeerId) (late : CallFault) :
    List Call → World × List (Nat × StreamState)
  | [] => (w, [])
  | call :: calls =>
    let (w, s) := w.openStream caller call late
    let (w, ss) := w.openStreams caller late calls
    (w, s :: ss)

/-- Makes calls and has a thread wait for what they bring. -/
def await (w : World) (peer : PeerId) (late : CallFault) (calls : List Call)
    (resume : List (Except CallFault ByteArray) → Program Ending) : World :=
  let (w, streams) := w.openStreams peer late calls
  match complete streams with
  | some all => w.start ⟨peer, resume all⟩
  | none => { w with waiting := w.waiting ++ [⟨peer, streams, resume⟩] }

/-- What one call brought. -/
def single (brought : List (Except CallFault ByteArray)) : Except CallFault ByteArray :=
  brought.headD (.error .noConnection)

/-! ## Threads -/

/-- Decides a command to the store of a node. -/
def command (w : World) (peer : PeerId) (c : Command) : World × c.Reply :=
  let m := (w.members.get? peer).getD ⟨⟨peer, 0, 0, ""⟩, .empty .default 0, .simulated 0 (.ok .null), []⟩
  let (store, reply, events) := m.store.step c
  (w.update peer fun m => { m with store := store, told := m.told ++ events }, reply)

/-- What comes of a thread that has ended. -/
def finish (w : World) : Ending → World
  | .reply stream bytes => w.bring stream (.ok bytes)
  | .answer outcome => { w with answered := some outcome }
  | .over => w

/-- A thread for a job of a node. -/
def jobThread (w : World) (peer : PeerId) (job : Job) : Thread :=
  match w.members.get? peer with
  | some m => ⟨peer, (Node.runJob m.settings job).bind fun _ => .done .over⟩
  | none => ⟨peer, .done .over⟩

/-- Wakes a program after some milliseconds. -/
def later (w : World) (peer : PeerId) (delay : Nat) (p : Program Ending) : World :=
  if delay = 0 then w.start ⟨peer, p⟩ else w.setAlarm delay (.wake ⟨peer, p⟩)

/-- Runs a task. -/
def execute (w : World) (peer : PeerId) (p : Proposal) : World × Nat × Outcome Json :=
  match w.members.get? peer with
  | some m =>
    let (files, outcome) := m.executor.run p w.files
    ({ w with files := files }, m.executor.duration, outcome)
  | none => (w, 0, .ok .null)

/-- The answer of a change to the files. -/
def changeFiles (w : World) (r : Except IoFault Files) : World × Except IoFault Unit :=
  match r with
  | .ok files => ({ w with files := files }, .ok ())
  | .error fault => (w, .error fault)

/-- Runs a thread until it has to wait or has asked its store something. -/
def run (w : World) (peer : PeerId) : Program Ending → World
  | .done e => w.finish e
  | .ask (.store c) next =>
    let (w, reply) := w.command peer c
    w.start ⟨peer, next reply⟩
  | .ask (.emit e) next => (w.update peer fun m => { m with told := m.told ++ [e] }).run peer (next ())
  | .ask .now next => w.run peer (next w.time)
  | .ask .freshId next =>
    let (n, w) := w.fresh
    w.run peer (next (Identifier.ofTime w.time.toInt.toNat n))
  | .ask .freshToken next =>
    let (n, w) := w.fresh
    w.run peer (next (Identifier.token n))
  | .ask (.random bound) next =>
    let (n, w) := w.fresh
    w.run peer (next (Identifier.scatter n % (bound + 1)))
  | .ask .knownPeers next => w.run peer (next (w.network.knownPeers peer))
  | .ask (.call c) next => w.await peer .requestTimedOut [c] fun rs => next (single rs)
  | .ask (.callAll cs) next => w.await peer .requestTimedOut cs next
  | .ask (.transfer c) next =>
    w.await peer .transferTimedOut [c] fun rs => next ((single rs).map fun _ => ())
  | .ask (.sleep millis) next => w.later peer millis (next ())
  | .ask (.execute p) next =>
    let (w, delay, outcome) := w.execute peer p
    w.later peer delay (next outcome)
  | .ask (.readFile path) next => w.run peer (next (w.files.read path))
  | .ask (.makeDirectories path) next =>
    let (w, r) := w.changeFiles (w.files.makeDirectories path)
    w.run peer (next r)
  | .ask (.writeFile path bytes) next =>
    let (w, r) := w.changeFiles (w.files.write path bytes)
    w.run peer (next r)
  | .ask (.spawn job) next => (w.start (w.jobThread peer job)).run peer (next ())

/-! ## The passing of time -/

/-- What an alarm does. -/
def ring (w : World) : Alarm → World
  | .wake t => w.start t
  | .deliver stream brought => w.bring stream brought

/-- Runs the next thread, or else moves the clock to the next alarm that is before `deadline`. An
alarm that is already due goes first: who was ready before it runs before those it wakes. -/
def step? (w : World) (deadline : Option Nat) : Option World :=
  match w.alarms, w.ready with
  | (time, a) :: rest, t :: ready =>
    if time ≤ w.clock then some ({ w with alarms := rest }.ring a)
    else some ({ w with ready := ready }.run t.peer t.program)
  | [], t :: ready => some ({ w with ready := ready }.run t.peer t.program)
  | (time, a) :: rest, [] =>
    if deadline.all (time < ·) then some ({ w with clock := max w.clock time, alarms := rest }.ring a)
    else none
  | [], [] => none

/-- Runs until an answer is there. -/
def untilAnswered : Nat → World → World
  | 0, w => w
  | fuel + 1, w =>
    if w.answered.isSome then w
    else
      match w.step? none with
      | some w => untilAnswered fuel w
      | none => w

/-- Runs up to a time. -/
def untilTime (deadline : Nat) : Nat → World → World
  | 0, w => w
  | fuel + 1, w =>
    match w.step? (some deadline) with
    | some w => untilTime deadline fuel w
    | none => { w with clock := max w.clock deadline }

/-- More steps than any run takes that comes to rest. -/
def patience : Nat := 10000000

/-- Lets some milliseconds pass. What is due at the very end of them is still to come. -/
def pass (w : World) (millis : Nat) : World := untilTime (w.clock + millis) patience w

/-- Has a peer do something, and waits for the outcome. -/
def perform (w : World) (peer : PeerId) (a : Action Json) : World × Outcome Json :=
  let program := Program.bind a.run fun outcome => .done (.answer outcome)
  let w := untilAnswered patience ({ w with answered := none }.start ⟨peer, program⟩)
  ({ w with answered := none }, w.answered.getD (.error .channelClosed))

/-! ## Peers -/

/-- A peer joins that answers some protocols. -/
def joinAs (w : World) (peer : PeerId) (protocols : List String) : World :=
  { w with network := protocols.foldl (fun n p => n.offer peer p) (w.network.join peer) }

/-- A node joins. What it answers is no longer answered by a script of the same name. -/
def joinNode (w : World) (m : Member) : World :=
  let peer := m.settings.peer
  let scripts :=
    match w.scripts.get? peer with
    | some s => w.scripts.insert peer (s.without Node.protocols)
    | none => w.scripts
  { w.joinAs peer Node.protocols with members := w.members.insert peer m, scripts := scripts }

/-- A scripted peer joins. A node of the same name goes on with what the script does not answer. -/
def joinScript (w : World) (peer : PeerId) (s : Script) : World :=
  let s := ((w.scripts.get? peer).map s.atop).getD s
  { w.joinAs peer s.protocols with scripts := w.scripts.insert peer s }

/-- What the nodes have told since this was last asked. -/
def takeTold (w : World) : List (PeerId × List NodeEvent) × World :=
  let told := w.members.entries.map fun (peer, m) => (peer, m.told)
  (told, { w with members := .ofList (w.members.entries.map fun (peer, m) => (peer, { m with told := [] })) })

/-- What the scripted peers have seen since this was last asked. -/
def takeSeen (w : World) : List (PeerId × List SeenRequest) × World :=
  let seen := w.scripts.entries.map fun (peer, s) => (peer, s.seen)
  (seen, { w with scripts := .ofList (w.scripts.entries.map fun (peer, s) => (peer, { s with seen := [] })) })

end World

end TaskSwarm
