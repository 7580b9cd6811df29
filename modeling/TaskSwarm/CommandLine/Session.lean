/-
What the program does.

A session is written down as a tree of deeds: `ask` for one deed and go on with
its answer, end with a result, or come to a halt. The tree says what is done and
in which order, not how; a machine does the deeds for real, and a rehearsal with
a tree of files in memory does them as if.

A simulation is one deed after the other of saying something: its swarm lives in
virtual time and in files of its own.
-/
import TaskSwarm.CommandLine.Announcement
import TaskSwarm.CommandLine.Invocation
import TaskSwarm.Configuration.Member
import TaskSwarm.Event.Log

set_option autoImplicit false

namespace TaskSwarm.CommandLine

/-! ## Deeds -/

/-- Why a session comes to a halt. -/
inductive Halt
  | logging
  | settings
  | tooFewNodes (count : Nat)
  | nodeStart
  | listen
  | taskUnreadable (path : String)
  | taskMalformed
  | proposal
  deriving DecidableEq, Repr

/-- The wording of each cause. -/
def Halt.message : Halt → String
  | .logging => "Failed to setup logging"
  | .settings => "Failed to load configuration"
  | .tooFewNodes count => s!"A simulation needs at least 2 nodes, got {count}"
  | .nodeStart => "Failed to start node"
  | .listen => "Failed to bind listen address"
  | .taskUnreadable path => s!"Failed to read task file {path}"
  | .taskMalformed => "Failed to parse task file"
  | .proposal => "Failed to create proposal"

/-- The line on standard error for a cause. -/
def Halt.line (cause : Halt) : String := "Error: " ++ cause.message

/-- What a session may ask for. -/
inductive Deed
  | say (a : Announcement)
  /-- What stands under a path where settings may be. -/
  | look (path : String)
  | readText (path : String)
  /-- Make a directory and an empty file in it; what the file held is kept or not. -/
  | openFile (directory path : String) (kept : Bool)
  | append (path : String) (text : String)
  /-- The time in milliseconds. -/
  | now
  /-- A name no other node has. -/
  | madeUpName
  /-- Start a node that listens; the address it got. -/
  | startNode (c : Configuration) (peer : PeerId) (listen : SocketAddress)
  /-- Have the node propose a task; the id of the proposal. -/
  | propose (task : TaskSpec)
  /-- Leave the node to itself until somebody interrupts. -/
  | wait

/-- What a deed is answered with. -/
abbrev Deed.Answer : Deed → Type
  | .say _ => Unit
  | .look _ => Candidate
  | .readText _ => Except IoFault String
  | .openFile .. => Except IoFault Unit
  | .append .. => Except IoFault Unit
  | .now => Int64
  | .madeUpName => PeerId
  | .startNode .. => Except IoFault SocketAddress
  | .propose _ => Outcome String
  | .wait => Unit

/-- A session with a result. -/
inductive Session (α : Type) : Type
  | done (a : α)
  | halt (cause : Halt)
  | ask (deed : Deed) (next : deed.Answer → Session α)

namespace Session

/-- One session after another. -/
def bind {α β : Type} : Session α → (α → Session β) → Session β
  | done a, f => f a
  | halt cause, _ => halt cause
  | ask d next, f => ask d fun answer => (next answer).bind f

instance : Monad Session where
  pure := done
  bind := bind

/-- The session that asks for one deed. -/
def perform (d : Deed) : Session d.Answer := ask d done

/-- Says something. -/
def say (a : Announcement) : Session Unit := perform (.say a)

/-- Goes on with a value, or comes to a halt. -/
def require {ε α : Type} (cause : Halt) : Except ε α → Session α
  | .ok a => done a
  | .error _ => halt cause

/-- Plays a session through, given how deeds are done: its result, or why it came to a halt. -/
def play {m : Type → Type} [Monad m] {α : Type} (act : (d : Deed) → m d.Answer) :
    Session α → m (Except Halt α)
  | done a => pure (.ok a)
  | halt cause => pure (.error cause)
  | ask d next => do
    let answer ← act d
    (next answer).play act

end Session

open Session

/-! ## Before a command -/

/-- What there is around the program. -/
structure Surroundings where
  /-- The directory where a user keeps settings. -/
  userSettings : Option String
  /-- The directory where data of a user goes. -/
  userData : String
  /-- The files that a simulation finds. -/
  files : Files

/-- Opens the log of the program. -/
def openLog (s : Surroundings) (g : Globals) : Session Unit := do
  if g.stderr then return ()
  let directory := Path.join (Path.join s.userData "swarmnode") "logs"
  let opened ← perform (.openFile directory (Path.join directory "sn.log") false)
  require .logging opened

/-- Looks at each of some paths. -/
def lookAt : List String → Session (List (String × Candidate))
  | [] => return []
  | path :: paths => do
    let seen ← perform (.look path)
    return (path, seen) :: (← lookAt paths)

/-- The settings, from wherever they come. -/
def loadSettings (s : Surroundings) (g : Globals) : Session Configuration := do
  let seen ← lookAt (g.config.toList ++ Configuration.searchPath s.userSettings)
  let look path := (seen.lookup path).getD .missing
  require .settings (Configuration.load look s.userSettings g.config)

/-- Opens the event log of a node, if it keeps one. -/
def openEvents (c : Configuration) (peer : PeerId) : Session Unit := do
  match c.events.logDir with
  | some directory =>
    require .nodeStart (← perform (.openFile directory (EventLog.path directory peer) true))
  | none => return ()

/-- Adds an event to the log of its node, if it keeps one. -/
def logEvent (c : Configuration) (time : Int64) (peer : PeerId) (e : NodeEvent) : Session Unit := do
  match c.events.logDir with
  | some directory =>
    let entry : LogEntry := ⟨.ofMillis time.toInt, peer, e⟩
    let _ ← perform (.append (EventLog.path directory peer) entry.line)
    return ()
  | none => return ()

/-! ## A simulation -/

/-- The name of a node of a simulation. -/
def nodeName (index : Nat) : PeerId := s!"node-{index}"

/-- The node that proposes. -/
def proposer : PeerId := nodeName 0

/-- The task that is proposed. -/
def sampleTask (cpu : Float) : TaskSpec :=
  { TaskSpec.default with
    requirements := { Requirements.default with cpu := cpu }
    container := { Container.empty with image := "alpine:3", command := "echo hello from the swarm" } }

/-- Whether an event of the proposer ends the life of a proposal. -/
def endsLife (id : String) (peer : PeerId) : NodeEvent → Bool
  | .proposalStateChanged other _ target => peer = proposer && other = id && target.isTerminal
  | _ => false

/-- Events up to the first that ends the life of a proposal, and whether there is one. -/
def untilEnd (id : String) : List (PeerId × NodeEvent) → List (PeerId × NodeEvent) × Bool
  | [] => ([], false)
  | (peer, e) :: rest =>
    if endsLife id peer e then ([(peer, e)], true)
    else
      let (more, ended) := untilEnd id rest
      ((peer, e) :: more, ended)

/-- Tells what nodes have told. -/
def tellAll (c : Configuration) (time : Int64) : List (PeerId × NodeEvent) → Session Unit
  | [] => return ()
  | (peer, e) :: rest => do
    logEvent c time peer e
    say (.told peer e)
    tellAll c time rest

/-- Follows a proposal up to its end or to a time; whether its end came first. -/
def follow (c : Configuration) (id : String) (deadline : Nat) : Nat → World → Session (World × Bool)
  | 0, w => return (w, false)
  | fuel + 1, w => do
    let (told, w) := w.takeTold
    let (events, ended) := untilEnd id (told.flatMap fun (peer, es) => es.map fun e => (peer, e))
    tellAll c w.time events
    if ended then return (w, true)
    else if deadline ≤ w.clock then return (w, false)
    else
      match w.step? (some deadline) with
      | some w => follow c id deadline fuel w
      | none => return (w, false)

/-- Has a node of a world propose a task; the id of the proposal. -/
def proposeIn (w : World) (peer : PeerId) (settings : Settings) (task : TaskSpec) :
    World × Outcome String :=
  let (w, outcome) := w.perform peer (do return .str (← Node.create settings task).id)
  (w, outcome.map fun j => j.str?.getD "")

/-- Runs a swarm of nodes and follows one proposal through it. -/
def simulate (s : Surroundings) (c : Configuration) (nodes : Nat) (cpu : Float) (timeoutSeconds : Nat) :
    Session Unit := do
  if nodes < 2 then halt (.tooFewNodes nodes)
  let peers := (List.range nodes).map nodeName
  peers.forM (openEvents c)
  let w := peers.foldl (fun w peer => w.joinNode (c.member peer)) (World.empty (← perform .now) s.files)
  say (.started nodes)
  let (w, outcome) := proposeIn w proposer (c.settings proposer) (sampleTask cpu)
  let id ← require .proposal outcome
  say (.proposed proposer id)
  let (w, ended) ← follow c id (w.clock + timeoutSeconds * 1000) World.patience w
  if !ended then say (.timedOut id)
  match (w.members.get? proposer).bind fun m => m.store.proposals.get? id with
  | some p => say (.record p)
  | none => return ()

/-! ## A node -/

/-- Has the node propose the task of a file. -/
def proposeFile (path : String) : Session Unit := do
  let text ← require (.taskUnreadable path) (← perform (.readText path))
  match Yaml.decode? TaskSpec.codec text with
  | none => halt .taskMalformed
  | some task =>
    match ← perform (.propose task) with
    | .ok id => say (.created id)
    | .error e => say (.notCreated e)

/-- The name of a node that is given none, made of a token. -/
def ofToken (token : String) : PeerId := "node-" ++ String.ofList (token.toList.take 8)

/-- Runs a node, and proposes the task it was given. -/
def runNode (c : Configuration) (task peer : Option String) (listen : Option SocketAddress) :
    Session Unit := do
  let peer ←
    match peer.or c.node.peer with
    | some peer => pure peer
    | none => perform .madeUpName
  openEvents c peer
  let address ← require .listen (← perform (.startNode c peer (listen.getD c.node.listen)))
  say (.listening peer address)
  task.forM proposeFile
  perform .wait

/-! ## All of it -/

/-- Carries out a command line. -/
def session (s : Surroundings) (i : Invocation) : Session Unit := do
  openLog s i.globals
  let c ← loadSettings s i.globals
  match i.command with
  | some (.run task peer listen) => runNode c task peer listen
  | some (.simulate nodes cpu timeoutSeconds) => simulate s c nodes cpu timeoutSeconds
  | some .config | none => say (.settings c)

end TaskSwarm.CommandLine
