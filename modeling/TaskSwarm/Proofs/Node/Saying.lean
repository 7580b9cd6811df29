/-
What a node tells, and in the course of what.

Every event is told by operations of one kind or two, and `Operation.Tells` lists them. The
list is checked action by action, by the rules for what an action asks (`Asks`), whatever
the action is answered; what had to happen before an event is told is another matter, and
is left to the modules about the operations that tell it.
-/
import TaskSwarm.Proofs.Node.Restraint

set_option autoImplicit false

namespace TaskSwarm

/-- The event that an effect tells. -/
def Effect.event? : Effect → Option NodeEvent
  | .emit event => some event
  | _ => none

theorem Effect.event?_of_isOrdinary {e : Effect} (h : e.isOrdinary = true) : e.event? = none := by
  cases e <;> first | rfl | cases h

namespace Action

variable {α : Type} {E E' : NodeEvent → Prop} {a : Action α}

/-- Whatever it is answered, the action tells nothing but events of some kind. -/
abbrev Says (E : NodeEvent → Prop) (a : Action α) : Prop :=
  a.Asks fun e => ∀ event, e.event? = some event → E event

theorem Says.imp (ha : a.Says E) (himp : ∀ event, E event → E' event) : a.Says E' :=
  Asks.imp ha fun _ he event heq => himp event (he event heq)

theorem says_emit {event : NodeEvent} (h : E event) : (perform (.emit event)).Says E :=
  .perform fun _ heq => Option.some.inj heq ▸ h

theorem says_silent {e : Effect} (h : e.event? = none) : (perform e).Says E :=
  .perform fun _ heq => absurd (h.symm.trans heq) (by simp)

theorem Ordinary.says (ha : a.Ordinary) : a.Says E :=
  Asks.imp ha fun _ he _ heq => absurd ((Effect.event?_of_isOrdinary he).symm.trans heq) (by simp)

end Action

/-- What may be told in the course of an operation. -/
inductive Operation.Tells : Operation → NodeEvent → Prop
  | created {spec : TaskSpec} {p : Proposal} : Tells (.create spec) (.proposalCreated p.id p)
  | cancelled {id : String} : Tells (.cancel id) (.proposalCancelled id)
  | received {sender : PeerId} {p : Proposal} :
      Tells (.handle sender (.proposal p)) (.proposalReceived p.id sender p)
  | accepted {sender : PeerId} {x : Acceptance} {id : String} :
      Tells (.handle sender (.acceptance x)) (.proposalAccepted id x.acceptedBy)
  | updated {sender : PeerId} {u : StatusUpdate} :
      Tells (.handle sender (.status u)) (.taskStatusUpdated u.taskId u.status u.progress)
  | failedThere {sender : PeerId} {u : StatusUpdate} {text : String} :
      Tells (.handle sender (.status u)) (.taskFailed u.taskId text)
  | completedThere {sender : PeerId} {x : TaskResult} :
      Tells (.handle sender (.result x)) (.taskCompleted x.proposalId x.result)
  | noticed {sender : PeerId} {c : Cancellation} :
      Tells (.handle sender (.cancellation c)) (.proposalCancelled c.proposalId)
  | started {p : Proposal} {executor : PeerId} : Tells (.job (.run p)) (.taskStarted p.id executor)
  | completed {p : Proposal} {v : Json} : Tells (.job (.run p)) (.taskCompleted p.id v)
  | failed {p : Proposal} {id text : String} : Tells (.job (.run p)) (.taskFailed id text)

namespace Node

open TaskSwarm.Action

variable {s : Settings} {id : String} {sender : PeerId}

/-! ## Requests of other nodes -/

theorem says_handleProposal {p : Proposal} :
    (handleProposal s sender p).Says (Operation.Tells (.handle sender (.proposal p))) := by
  refine .bind asks_ofOutcome fun _ => .bind (says_silent rfl) fun t => .ite asks_pure ?_
  refine .bind (says_silent rfl) fun kept => .ite asks_pure (.bind (says_emit .received) fun _ => ?_)
  refine .ite (.bind (says_silent rfl) fun fits => .ite ?_ asks_pure) asks_pure
  exact .bind ordinary_scheduleClaim.says fun _ => asks_pure

theorem says_handleAcceptance {x : Acceptance} :
    (handleAcceptance s x).Says (Operation.Tells (.handle sender (.acceptance x))) := by
  refine .bind ordinary_requireProposal.says fun p => .ite asks_throw (.ite asks_throw ?_)
  refine .bind ordinary_streamFiles.says.outcome fun sent => ?_
  cases sent with
  | ok u =>
    refine .bind ordinary_transition.says fun _ => .bind (says_emit .accepted) fun _ => ?_
    exact .bind (says_silent rfl) fun _ => asks_pure
  | error e => exact .bind ordinary_transition.says.outcome fun _ => asks_throw

theorem says_handleStatus {u : StatusUpdate} :
    (handleStatus sender u).Says (Operation.Tells (.handle sender (.status u))) := by
  refine .bind ordinary_requireProposal.says fun p => .bind asks_ofOutcome fun _ => .ite ?_ ?_
  · refine .bind ordinary_transition.says fun _ => .ite ?_ ?_
    · exact .bind (says_emit .failedThere) fun _ => .bind (says_emit .updated) fun _ => asks_pure
    · exact .bind (says_emit .updated) fun _ => asks_pure
  · exact .bind ordinary_setProgress.says fun _ => .bind (says_emit .updated) fun _ => asks_pure

theorem says_handleUnlock {E : NodeEvent → Prop} {u : UnlockRequest} : (handleUnlock u).Says E := by
  refine .bind (says_silent rfl) fun r => ?_
  split
  · exact asks_pure
  · exact asks_pure
  · exact asks_throw

theorem says_handleResult {x : TaskResult} :
    (handleResult sender x).Says (Operation.Tells (.handle sender (.result x))) := by
  refine .bind ordinary_requireProposal.says fun p => .bind asks_ofOutcome fun _ => ?_
  exact .bind ordinary_transition.says fun _ => .bind (says_emit .completedThere) fun _ => asks_pure

theorem says_handleCancellation {c : Cancellation} :
    (handleCancellation sender c).Says (Operation.Tells (.handle sender (.cancellation c))) := by
  refine .bind (says_silent rfl) fun found => ?_
  cases found with
  | none => exact asks_pure
  | some p =>
    refine .ite asks_throw (.ite (.bind ordinary_transition.says fun _ => ?_) asks_pure)
    exact .bind (says_emit .noticed) fun _ => asks_pure

theorem says_handle {m : Inbound} : (handle s sender m).Says (Operation.Tells (.handle sender m)) := by
  cases m with
  | proposal p => exact says_handleProposal
  | acceptance x => exact says_handleAcceptance
  | status u => exact says_handleStatus
  | lock r =>
    refine .bind (.bind (says_silent rfl) fun t => ?_) fun a => asks_pure
    exact .bind (says_silent rfl) fun d => asks_pure
  | unlock u => exact .bind says_handleUnlock fun a => asks_pure
  | result x => exact says_handleResult
  | cancellation c => exact says_handleCancellation

/-! ## What its user asks of a node -/

theorem says_create {spec : TaskSpec} : (create s spec).Says (Operation.Tells (.create spec)) := by
  refine .bind asks_ofOutcome fun _ => .bind (says_silent rfl) fun id => .bind (says_silent rfl) fun t => ?_
  refine .bind (says_silent rfl) fun kept => .bind ordinary_broadcast.says.outcome fun sent => ?_
  cases sent with
  | ok acks => exact .bind (says_emit .created) fun _ => asks_pure
  | error e => exact .bind (says_silent rfl) fun _ => asks_throw

theorem says_cancel : (cancel s id).Says (Operation.Tells (.cancel id)) := by
  refine .bind ordinary_requireProposal.says fun p => .ite asks_pure ?_
  refine .bind ordinary_transition.says.outcome fun r => ?_
  split
  · refine .bind (says_emit .cancelled) fun _ => .ite (.bind ?_ fun _ => asks_pure) asks_pure
    exact .bind (says_silent rfl) fun _ => ordinary_requestAll.says
  · exact asks_pure
  · exact asks_throw

theorem says_attempt {E : NodeEvent → Prop} : (attempt s id).Says E := by
  refine .bind (Asks.outcome ?_) fun claimed => ?_
  · refine .bind ordinary_requireProposal.says fun p => .ite asks_throw ?_
    refine .bind (says_silent rfl) fun reserved => .ite asks_throw ?_
    refine .bind ordinary_lockAndAccept.says.outcome fun taken => ?_
    cases taken with
    | ok q => exact asks_pure
    | error e => exact .bind (says_silent rfl) fun _ => asks_throw
  · cases claimed with
    | ok p => exact .bind (says_silent rfl) fun _ => asks_pure
    | error e => exact asks_pure

/-! ## Running -/

theorem ordinary_sendStatus {p : Proposal} {status : TaskState} {progress : Option Json} :
    (sendStatus s p status progress).Ordinary :=
  .bind (.perform rfl) fun _ => .bind ordinary_request.outcome fun _ => asks_pure

theorem says_failTask {p q : Proposal} {text : String} :
    (failTask s q text).Says (Operation.Tells (.job (.run p))) :=
  .bind ordinary_transition.says.outcome fun _ =>
    .bind (says_emit .failed) fun _ => ordinary_sendStatus.says

theorem says_completeTask {p : Proposal} {v : Json} :
    (completeTask s p.id v).Says (Operation.Tells (.job (.run p))) := by
  refine .bind ordinary_requireProposal.says fun q => .bind (says_silent rfl) fun t => ?_
  refine .bind ordinary_request.says.outcome fun reported => ?_
  cases reported with
  | ok value => exact .bind ordinary_transition.says fun _ => says_emit .completed
  | error e => exact .bind says_failTask fun _ => asks_throw

theorem says_startTask {p : Proposal} :
    (startTask s p).Says (Operation.Tells (.job (.run p))) := by
  refine .bind ordinary_transition.says.outcome fun moved => ?_
  cases moved with
  | error e => exact .bind (says_silent rfl) fun _ => asks_throw
  | ok q =>
    refine .bind (says_emit .started) fun _ => .bind ordinary_sendStatus.says fun _ => ?_
    refine .bind (says_silent rfl) fun result => ?_
    -- Whatever came of it, the slot goes back in the end, and that is no news.
    cases result with
    | ok v =>
      exact .bind says_completeTask.outcome fun _ => .bind (says_silent rfl) fun _ => asks_ofOutcome
    | error e =>
      refine .bind says_failTask fun _ => .bind asks_pure fun _ => ?_
      exact .bind (says_silent rfl) fun _ => asks_ofOutcome

/-! ## Every operation -/

/-- Every event is told in the course of an operation that may tell it. -/
theorem says_program (s : Settings) (o : Operation) :
    (o.program s).Obeys (fun _ e => ∀ event, e.event? = some event → o.Tells event) (fun _ _ => True) [] := by
  cases o with
  | create spec => exact says_create.map []
  | cancel id => exact says_cancel.map []
  | attempt id => exact says_attempt.map []
  | query c h =>
    show Action.Obeys _ _ _ ((Operation.query c h).action s)
    exact Asks.map (says_silent rfl) []
  | handle sender m => exact says_handle []
  | job j =>
    cases j with
    | claim id delay =>
      exact obeys_claimJob.2 ⟨fun _ (heq : none = some _) => absurd heq (by simp),
        fun _ => says_attempt _⟩
    | run p => exact obeys_runJob.2 (says_startTask _)

end Node

end TaskSwarm
