/-
What a node does.

An operation is one thing a node does from its beginning to its end: what its
user asks of it, what it set going itself, and what a peer asks of it. Each is
one program; nothing a node does to its store is outside of these.

`Node.respond` is what a node runs for the bytes of a request. It splits into
reading the bytes, the operation that they ask for, and writing down what came
of it (`serveRequest_of_ok`, `serveRequest_of_error`), so a request may be taken
for the operation it asks for, and its answer for the outcome of that operation.
-/
import TaskSwarm.Node.Service

set_option autoImplicit false

namespace TaskSwarm

/-- Whether a command leaves every proposal and every slot alone. -/
def Command.isQuery : Command → Bool
  | .get _ | .list _ | .capabilities | .updateCapabilities _ | .canHandle _ | .activeTasks => true
  | _ => false

/-- The calls an effect makes. -/
def Effect.calls : Effect → List Call
  | .call c => [c]
  | .callAll cs => cs
  | _ => []

/-- One thing a node does. -/
inductive Operation
  /-- Its user has a task. -/
  | create (spec : TaskSpec)
  /-- Its user wants a task no longer. -/
  | cancel (id : String)
  /-- Its user wants it to take a task on. -/
  | attempt (id : String)
  /-- Its user wants to know something, or tells what it is capable of. -/
  | query (command : Command) (isQuery : command.isQuery = true)
  /-- It goes on with work of its own. -/
  | job (job : Job)
  /-- A peer asks it something. -/
  | handle (sender : PeerId) (message : Inbound)

namespace Operation

open TaskSwarm.Action (perform)

/-- What a node does, and what it comes to. -/
def action (s : Settings) : Operation → Action Json
  | .create spec => (fun p => Json.str p.id) <$> Node.create s spec
  | .cancel id => Json.bool <$> Node.cancel s id
  | .attempt id => Json.bool <$> Node.attempt s id
  | .query c _ => (fun _ => Json.null) <$> perform (.store c)
  | .job j => (fun _ => Json.null) <$> (ExceptT.lift (Node.runJob s j) : Action Unit)
  | .handle sender message => Node.handle s sender message

/-- The program of an operation. -/
def program (s : Settings) (o : Operation) : Program (Outcome Json) := (o.action s).run

/-- The proposal that an operation tries to take on. -/
def claimed? : Operation → Option String
  | .attempt id => some id
  | .job (.claim id _) => some id
  | _ => none

end Operation

namespace Node

/-- A request that can be read is served by the operation it asks for. -/
theorem serveRequest_of_ok {s : Settings} {sender : PeerId} {kind : MessageKind} {bytes : ByteArray}
    {m : Inbound} (h : Inbound.ofBytes kind bytes = .ok m) :
    (serveRequest s sender kind bytes).run = (Operation.handle sender m).program s := by
  unfold serveRequest
  rw [h]
  rfl

/-- A request that cannot be read is refused, and nothing else is done about it. -/
theorem serveRequest_of_error {s : Settings} {sender : PeerId} {kind : MessageKind}
    {bytes : ByteArray} {e : SwarmError} (h : Inbound.ofBytes kind bytes = .error e) :
    (serveRequest s sender kind bytes).run = .done (.error e) := by
  unfold serveRequest
  rw [h]
  rfl

end Node

end TaskSwarm
