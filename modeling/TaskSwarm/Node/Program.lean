/-
Programs of a node.

What a node does is written down as a tree: `done` with a result, or `ask` for
one effect and go on with its answer. The tree says what is asked and in which
order, not how it is answered; a scheduler, a simulation or a proof may answer
as it likes, and may do other things between any two effects. Every command to
the store is an effect of its own, so nothing else is atomic.
-/
import TaskSwarm.Message.Envelope
import TaskSwarm.Store.Basic

set_option autoImplicit false

namespace TaskSwarm

/-! ## Effects -/

/-- One request to a peer on a fresh stream. -/
structure Call where
  peer : PeerId
  protocol : String
  bytes : ByteArray
  /-- Milliseconds until the answer is given up. -/
  timeout : Nat

/-- Why a stream to a peer brought nothing. -/
inductive CallFault
  | noConnection
  | unsupported (protocol : String)
  | requestTimedOut
  | transferTimedOut
  | connectTimedOut
  /-- The peer has no address. -/
  | unlisted
  | refused (fault : IoFault)
  deriving DecidableEq, Repr, Inhabited

/-- The wording of each cause. -/
def CallFault.message : CallFault → String
  | .noConnection => "no connection"
  | .unsupported protocol => s!"protocol {protocol} not supported"
  | .requestTimedOut => "request timed out"
  | .transferTimedOut => "file transfer timed out"
  | .connectTimedOut => "connect timed out"
  | .unlisted => "not in peer directory"
  | .refused fault => fault.message

/-- The error for a peer to which a stream brought nothing. -/
def CallFault.toError (fault : CallFault) (peer : PeerId) : SwarmError :=
  .peerUnreachable peer fault.message

/-- Work that goes on by itself. -/
inductive Job
  /-- Try to take a proposal on, after some milliseconds. -/
  | claim (id : String) (delay : Nat)
  /-- Run a task that was taken on. -/
  | run (proposal : Proposal)

/-- What a program may ask for. -/
inductive Effect
  | store (command : Command)
  | emit (event : NodeEvent)
  /-- The time in milliseconds. -/
  | now
  /-- An id no proposal has. -/
  | freshId
  /-- A token no lock has. -/
  | freshToken
  /-- A number from zero up to and with `bound`. -/
  | random (bound : Nat)
  | knownPeers
  | call (call : Call)
  /-- Calls at the same time; the answers come in the order of the calls. -/
  | callAll (calls : List Call)
  /-- A file to a peer; done when the peer has closed the stream. -/
  | transfer (call : Call)
  | sleep (millis : Nat)
  /-- The work of a task. -/
  | execute (proposal : Proposal)
  | readFile (path : String)
  | makeDirectories (path : String)
  | writeFile (path : String) (bytes : ByteArray)
  | spawn (job : Job)

/-- What an effect is answered with. -/
abbrev Effect.Answer : Effect → Type
  | .store command => command.Reply
  | .emit _ => Unit
  | .now => Int64
  | .freshId => String
  | .freshToken => String
  | .random _ => Nat
  | .knownPeers => List PeerId
  | .call _ => Except CallFault ByteArray
  | .callAll _ => List (Except CallFault ByteArray)
  | .transfer _ => Except CallFault Unit
  | .sleep _ => Unit
  | .execute _ => Outcome Json
  | .readFile _ => Except IoFault ByteArray
  | .makeDirectories _ => Except IoFault Unit
  | .writeFile .. => Except IoFault Unit
  | .spawn _ => Unit

/-! ## Programs -/

/-- A program with a result. -/
inductive Program (α : Type) : Type
  | done (a : α)
  | ask (effect : Effect) (next : effect.Answer → Program α)

namespace Program

/-- One program after another. -/
def bind {α β : Type} : Program α → (α → Program β) → Program β
  | done a, f => f a
  | ask e next, f => ask e fun answer => (next answer).bind f

instance : Monad Program where
  pure := done
  bind := bind

/-- The program that asks for one effect. -/
def perform (e : Effect) : Program e.Answer := ask e done

/-- Plays a program through, given how effects are answered. -/
def play {m : Type → Type} [Monad m] {α : Type} (answer : (e : Effect) → m e.Answer) : Program α → m α
  | done a => pure a
  | ask e next => do
    let a ← answer e
    (next a).play answer

theorem bind_done {α : Type} (p : Program α) : p.bind done = p := by
  induction p with
  | done a => rfl
  | ask e next ih => simp [bind, ih]

theorem bind_assoc {α β γ : Type} (p : Program α) (f : α → Program β) (g : β → Program γ) :
    (p.bind f).bind g = p.bind fun a => (f a).bind g := by
  induction p with
  | done a => rfl
  | ask e next ih => simp [bind, ih]

instance : LawfulMonad Program :=
  LawfulMonad.mk' Program bind_done (fun _ _ => rfl) bind_assoc

end Program

/-- A program that may fail. -/
abbrev Action (α : Type) : Type := ExceptT SwarmError Program α

namespace Action

/-- The action that asks for one effect. -/
def perform (e : Effect) : Action e.Answer := ExceptT.lift (Program.perform e)

/-- The action with a result that is known. -/
def ofOutcome {α : Type} (o : Outcome α) : Action α := ExceptT.mk (Program.done o)

/-- The action whose result is what came of another. -/
def outcome {α : Type} (a : Action α) : Action (Outcome α) := ExceptT.lift a.run

/-- The error of a refused request to the system, as an action. -/
def ofIo {α : Type} (r : Except IoFault α) : Action α := ofOutcome (r.mapError .io)

end Action

/-! ## Single effects -/

namespace Node

open TaskSwarm.Action (perform ofOutcome)

/-- Keeps a proposal; false if one with its id is kept. -/
def insertProposal (p : Proposal) : Action Bool := perform (.store (.insert p))

/-- The proposal with an id. -/
def proposal? (id : String) : Action (Option Proposal) := perform (.store (.get id))

/-- The proposal with an id, which has to be there. -/
def requireProposal (id : String) : Action Proposal := do
  match ← proposal? id with
  | some p => return p
  | none => throw (.proposalNotFound id)

/-- Drops a proposal. -/
def removeProposal (id : String) : Action (Option Proposal) := perform (.store (.remove id))

/-- Moves a proposal on. -/
def transition (id : String) (target : TaskState) (patch : Patch) : Action Proposal := do
  let r ← perform (.store (.transition id target patch))
  ofOutcome r

/-- Notes how far a task has got. -/
def setProgress (id : String) (progress : Option Json) : Action Unit := do
  let r ← perform (.store (.setProgress id progress))
  ofOutcome r

/-- Gives the slot of a task back. -/
def releaseSlot (id : String) : Action Unit := perform (.store (.finish id))

/-- Tells an event. -/
def emit (e : NodeEvent) : Action Unit := perform (.emit e)

/-- The time. -/
def now : Action Int64 := perform .now

end Node

end TaskSwarm
