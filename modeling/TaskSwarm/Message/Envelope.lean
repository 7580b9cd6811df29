/-
Envelopes.

Every exchange is one request and one response. A request says of which kind it
is, and each kind has a protocol of its own on which alone it is accepted.
-/
import TaskSwarm.Message.Payload

set_option autoImplicit false

namespace TaskSwarm

/-! ## Kinds and protocols -/

/-- The kinds of requests. -/
inductive MessageKind
  | proposal | acceptance | status | result | lock | unlock | cancellation
  deriving DecidableEq, Repr, Inhabited

namespace MessageKind

/-- The kinds in the order in which complaints list them. -/
def all : List MessageKind := [proposal, acceptance, status, result, lock, unlock, cancellation]

/-- The name of a kind in an envelope. -/
def tag : MessageKind → String
  | proposal => "TASK_PROPOSAL"
  | acceptance => "TASK_ACCEPTANCE"
  | status => "TASK_STATUS_UPDATE"
  | result => "TASK_RESULT"
  | lock => "TASK_LOCK"
  | unlock => "TASK_UNLOCK"
  | cancellation => "TASK_CANCELLATION"

/-- The name of a kind in a complaint. -/
def title : MessageKind → String
  | proposal => "TaskProposal"
  | acceptance => "TaskAcceptance"
  | status => "TaskStatusUpdate"
  | result => "TaskResult"
  | lock => "TaskLock"
  | unlock => "TaskUnlock"
  | cancellation => "TaskCancellation"

/-- How kinds are written. -/
def codec : Codec MessageKind := .oneOf (all.map fun k => (k.tag, k))

/-- The word for a kind in the name of its protocol. -/
def word : MessageKind → String
  | proposal => "propose"
  | acceptance => "accept"
  | status => "status"
  | result => "result"
  | lock => "lock"
  | unlock => "unlock"
  | cancellation => "cancel"

end MessageKind

namespace Protocol

/-- The name of the protocol that goes by a word. -/
def named (word : String) : String := s!"/swarmnode/task/{word}/1.0.0"

/-- The protocol of a kind of requests. -/
def ofKind (k : MessageKind) : String := named k.word

/-- The kinds in the order in which their protocols are offered. -/
def requestKinds : List MessageKind :=
  [.proposal, .acceptance, .status, .lock, .unlock, .result, .cancellation]

/-- The protocol that carries files. -/
def file : String := named "file"

/-- The kind of requests a protocol carries. -/
def kind? (protocol : String) : Option MessageKind := requestKinds.find? fun k => ofKind k = protocol

theorem kind?_ofKind (k : MessageKind) : kind? (ofKind k) = some k := by
  cases k <;> decide

end Protocol

/-! ## Requests -/

/-- One request. -/
structure Request where
  kind : MessageKind
  payload : Json
  timestamp : Int64
  deriving DecidableEq

namespace Request

/-- How requests are written. -/
def codec : Codec Request :=
  Fields.codec
    (.cons (.required "type" MessageKind.codec) <|
     .cons (.required "payload" .json) <|
     .cons (.required "timestamp" .int64) .nil)
    "RequestEnvelope"
    (fun (kind, payload, timestamp, ()) => ⟨kind, payload, timestamp⟩)
    (fun r => (r.kind, r.payload, r.timestamp, ()))

/-- A request that carries a payload. -/
def new {α : Type} (kind : MessageKind) (c : Codec α) (payload : α) (now : Int64) : Request :=
  ⟨kind, (c.encode payload).canonical, now⟩

end Request

/-! ## Responses -/

/-- Whether a request was served. -/
inductive ResponseStatus
  | ok | error
  deriving DecidableEq, Repr

/-- How a status is written. -/
def ResponseStatus.codec : Codec ResponseStatus := .oneOf [("ok", .ok), ("error", .error)]

/-- The answer to a request. -/
structure Response where
  status : ResponseStatus
  result : Option Json
  message : Option String
  timestamp : Int64
  deriving DecidableEq

namespace Response

/-- How responses are written. -/
def codec : Codec Response :=
  Fields.codec
    (.cons (.required "status" ResponseStatus.codec) <|
     .cons ((RecordField.withDefault "result" (.option .json) none).omitting Option.isNone) <|
     .cons ((RecordField.withDefault "message" (.option .string) none).omitting Option.isNone) <|
     .cons (.required "timestamp" .int64) .nil)
    "ResponseEnvelope"
    (fun (status, result, message, timestamp, ()) => ⟨status, result, message, timestamp⟩)
    (fun r => (r.status, r.result, r.message, r.timestamp, ()))

/-- The request was served. -/
def ok (result : Json) (now : Int64) : Response := ⟨.ok, some result, none, now⟩

/-- The request was refused. -/
def error (message : String) (now : Int64) : Response := ⟨.error, none, some message, now⟩

/-- What a peer answered. -/
def outcome (r : Response) (peer : PeerId) : Outcome Json :=
  match r.status with
  | .ok => .ok (r.result.getD .null)
  | .error => .error (.rejected peer (r.message.getD "unknown error"))

/-- The response for what came of serving a request. -/
def ofOutcome (now : Int64) : Outcome Json → Response
  | .ok result => ok result now
  | .error e => error e.wireMessage now

end Response

end TaskSwarm
