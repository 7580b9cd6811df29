/-
Runs of a swarm.

A run is told as the list of what happened in it, the latest first. Three things
happen: an activity begins, it asks for an effect and is answered, it ends. An
activity is one operation of one node, and where it stands in its program is what
its own part of the list has left of that program, so the list says everything
there is to know, the stores included. Any activity may go on at any time: a
command to a store is decided at once and alone, and whatever the others do may
come between two effects of the same activity.

Members of the swarm run the programs of this library. Who is not a member may
ask a member anything at any time, and may answer a member's call with anything.
A call to a member is served by one activity of that member, or by none, and
brings the caller what that activity came to, or some fault: requests and
responses get lost and late as they please, but nobody speaks in a member's name.
Clocks, chance, files and the work of a task are answered arbitrarily; an id or a
token that is said to be fresh has not been given out before.

Files go over streams of their own, which touch no store; a transfer brings what
it likes, and what the other end does with it is no activity here.
-/
import TaskSwarm.Proofs.Node.Operation

set_option autoImplicit false

namespace TaskSwarm

/-- Who belongs to a swarm, and what each node is told and given at the start. -/
structure Swarm where
  isMember : PeerId → Prop
  settings : PeerId → Settings
  named : ∀ peer, (settings peer).peer = peer
  capabilities : PeerId → Capabilities
  lockTimeout : PeerId → Int64

/-- Where an activity comes from. -/
inductive Origin
  /-- The node's user, or a peer outside the swarm. -/
  | outside
  /-- The effect at some place of an activity, which set a job going. -/
  | spawned (parent place : Nat)
  /-- One of the calls made by the effect at some place of an activity. -/
  | request (caller place index : Nat) (call : Call)

/-- One operation that a node is at. -/
structure Activity where
  number : Nat
  peer : PeerId
  origin : Origin
  operation : Operation

/-- What happens. -/
inductive Event
  | began (activity : Activity)
  | asked (activity : Activity) (effect : Effect) (answer : effect.Answer)
  | ended (activity : Activity) (outcome : Outcome Json)

namespace Event

/-- Whose doing an event is. -/
def activity : Event → Activity
  | began a | asked a _ _ | ended a _ => a

/-- Whether an event is an effect of the activity of some number. -/
def isEffectOf (number : Nat) : Event → Bool
  | asked a _ _ => a.number = number
  | _ => false

end Event

namespace Swarm

variable (w : Swarm)

/-! ## What a run has come to -/

/-- The store of a node after what happened. -/
def store : List Event → PeerId → Store
  | [], n => .empty (w.capabilities n) (w.lockTimeout n)
  | .asked a (.store c) _ :: h, n => if n = a.peer then ((store h n).step c).1 else store h n
  | _ :: h, n => store h n

/-- What a node keeps under an id. -/
def record (h : List Event) (n : PeerId) (id : String) : Option Proposal :=
  (w.store h n).proposals.get? id

/-- The number of effects an activity has asked for. -/
def place (a : Activity) (h : List Event) : Nat := h.countP (Event.isEffectOf a.number)

/-- What is left of the program of an activity that has begun and has not ended. -/
inductive Standing (a : Activity) : List Event → Program (Outcome Json) → Prop
  | began {h : List Event} : Standing a (.began a :: h) (a.operation.program (w.settings a.peer))
  | asked {h : List Event} {e : Effect} {next : e.Answer → Program (Outcome Json)}
      (answer : e.Answer) : Standing a h (.ask e next) → Standing a (.asked a e answer :: h) (next answer)
  | other {h : List Event} {p : Program (Outcome Json)} {event : Event} :
      event.activity ≠ a → Standing a h p → Standing a (event :: h) p

/-! ## What may happen next -/

/-- An activity that may begin. -/
inductive Opens (h : List Event) : Activity → Prop
  /-- A node's user has it do something. -/
  | user {number : Nat} {n : PeerId} {o : Operation} : w.isMember n → (∀ j, o ≠ .job j) →
      (∀ sender m, o ≠ .handle sender m) → Opens h ⟨number, n, .outside, o⟩
  /-- A peer outside the swarm asks a node something. -/
  | outsider {number : Nat} {n sender : PeerId} {m : Inbound} : w.isMember n → ¬ w.isMember sender →
      Opens h ⟨number, n, .outside, .handle sender m⟩
  /-- A node goes on with a job it has set going. -/
  | spawned {number : Nat} {b : Activity} {j : Job} {newer older : List Event} :
      h = newer ++ .asked b (.spawn j) () :: older →
      Opens h ⟨number, b.peer, .spawned b.number (place b older), .job j⟩
  /-- A node takes in a call that another one is making. -/
  | request {number : Nat} {b : Activity} {e : Effect} {next : e.Answer → Program (Outcome Json)}
      {i : Nat} {c : Call} {kind : MessageKind} {m : Inbound} :
      Standing w b h (.ask e next) → e.calls[i]? = some c → w.isMember c.peer →
      Protocol.kind? c.protocol = some kind → Inbound.ofBytes kind c.bytes = .ok m →
      Opens h ⟨number, c.peer, .request b.number (place b h) i c, .handle b.peer m⟩

/-- What serving a call came to: the outcome of the activity that took it in, or the complaint about
bytes that no node can read. -/
def Served (h : List Event) (a : Activity) (i : Nat) (c : Call) (o : Outcome Json) : Prop :=
  (∃ x, .ended x o ∈ h ∧ x.origin = .request a.number (place a h) i c) ∨
    ∃ kind e, Protocol.kind? c.protocol = some kind ∧ Inbound.ofBytes kind c.bytes = .error e ∧
      o = .error e

/-- What a call may bring. -/
def Brought (h : List Event) (a : Activity) (i : Nat) (c : Call) : Except CallFault ByteArray → Prop
  | .error _ => True
  | .ok bytes => w.isMember c.peer → ∃ now o,
      bytes = Wire.writeMessage Response.codec (.ofOutcome now o) ∧ Served h a i c o

/-- How an effect may be answered. -/
def Possible (h : List Event) (a : Activity) : (e : Effect) → e.Answer → Prop
  | .store c, r => r = ((w.store h a.peer).step c).2.1
  | .freshId, id => ∀ b, Event.asked b .freshId id ∉ h
  | .freshToken, token => ∀ b, Event.asked b .freshToken token ∉ h
  | .call c, r => w.Brought h a 0 c r
  | .callAll cs, rs => rs.length = cs.length ∧
      ∀ i c r, cs[i]? = some c → rs[i]? = some r → w.Brought h a i c r
  | _, _ => True

/-- The runs of a swarm. -/
inductive Run : List Event → Prop
  | nil : Run []
  | begin {h : List Event} {a : Activity} : Run h → (∀ b, .began b ∈ h → b.number ≠ a.number) →
      (∀ b, .began b ∈ h → b.origin = a.origin → a.origin = .outside) → w.Opens h a →
      Run (.began a :: h)
  | ask {h : List Event} {a : Activity} {e : Effect} {next : e.Answer → Program (Outcome Json)}
      {answer : e.Answer} : Run h → w.Standing a h (.ask e next) → w.Possible h a e answer →
      Run (.asked a e answer :: h)
  | finish {h : List Event} {a : Activity} {o : Outcome Json} : Run h → w.Standing a h (.done o) →
      Run (.ended a o :: h)

end Swarm

end TaskSwarm
