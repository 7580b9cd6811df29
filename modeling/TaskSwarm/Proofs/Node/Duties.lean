/-
What the operations of a node ask for, and when.

`Permits` says for each effect which operation asks for it and what that
operation was told before: whoever moves a proposal to ACCEPTED has either seen
it LOCKED in its own name as proposer, or was granted the lock and accepted by
the proposer; whoever runs a task was answered so; whoever reports a result got
it from running the task. `obeys_program` says that every operation keeps to
it, and ends only as `Ends` says. It is about one operation alone, whatever it
is answered; all that is said of runs later on is drawn from it, and no later
proof looks into a program again.
-/
import TaskSwarm.Proofs.Node.Conduct
import TaskSwarm.Proofs.Node.Operation

set_option autoImplicit false

namespace TaskSwarm.Node

open TaskSwarm.Action

/-! ## What an operation may have been told -/

section Told

variable (s : Settings) (past : List Entry)

/-- An effect was asked for and answered so. -/
def Got (e : Effect) (answer : e.Answer) : Prop := (⟨e, answer⟩ : Entry) ∈ past

/-- A proposal was found under an id. -/
def Looked (id : String) (p : Proposal) : Prop := Got past (.store (.get id)) (some p)

/-- The store moved a proposal on, to `q`. -/
def Moved (id : String) (target : TaskState) (patch : Patch) (q : Proposal) : Prop :=
  Got past (.store (.transition id target patch)) (.ok q)

/-- The proposer said that the node has the lock. -/
def GotLock (p : Proposal) : Prop :=
  ∃ token t r value answer,
    Got past (.call (requestCall s p.proposer .lock LockRequest.codec ⟨p.id, token, s.peer⟩ t)) r ∧
      readAnswer p.proposer r = .ok value ∧ LockAnswer.codec.read value = .ok answer ∧
        answer.success = true

/-- The proposer said that the node is accepted. -/
def GotAcceptance (p : Proposal) : Prop :=
  ∃ t t' r value,
    Got past
        (.call (requestCall s p.proposer .acceptance Acceptance.codec ⟨p.id, s.peer, t⟩ t')) r ∧
      readAnswer p.proposer r = .ok value

/-- The node ran a task, with a result. -/
def Ran (id : String) (result : Json) : Prop :=
  ∃ p, Moved past id .running .none p ∧ Got past (.execute p) (.ok result)

/-- The proposer said that it has a result. -/
def GotReceipt (id : String) (result : Json) : Prop :=
  ∃ p t t' r value, Looked past id p ∧
    Got past (.call (requestCall s p.proposer .result TaskResult.codec ⟨id, result, t⟩ t')) r ∧
      readAnswer p.proposer r = .ok value

end Told

/-! ## What an operation may ask for -/

section Duties

variable (s : Settings) (o : Operation) (past : List Entry)

/-- A claim that found the proposal and was granted its lock. -/
structure Claiming (p : Proposal) : Prop where
  looked : ∃ id, o.claimed? = some id ∧ Looked past id p
  lock : GotLock s past p

/-- The moves of a proposal, with who makes them. -/
inductive Moves : String → TaskState → Patch → Prop
  | cancel {id : String} : o = .cancel id → Moves id .cancelled .none
  | cancellation {sender : PeerId} {c : Cancellation} {p : Proposal} :
      o = .handle sender (.cancellation c) → Looked past c.proposalId p → p.proposer = sender →
      Moves c.proposalId .cancelled .none
  | acceptance {sender : PeerId} {x : Acceptance} {p : Proposal} :
      o = .handle sender (.acceptance x) → Looked past x.proposalId p → p.proposer = s.peer →
      p.state = .locked → Moves p.id .accepted (.ofExecutor x.acceptedBy)
  | withdrawal {sender : PeerId} {x : Acceptance} {p : Proposal} :
      o = .handle sender (.acceptance x) → Looked past x.proposalId p → p.proposer = s.peer →
      p.state = .locked → p.container.inputFiles ≠ [] → Moves p.id .proposed .none
  | status {sender : PeerId} {u : StatusUpdate} {p : Proposal} :
      o = .handle sender (.status u) → Looked past u.taskId p → checkExecutor p sender = .ok () →
      u.status = .running ∨ u.status = .failed → Moves u.taskId u.status (.ofProgress u.progress)
  | result {sender : PeerId} {x : TaskResult} {p : Proposal} :
      o = .handle sender (.result x) → Looked past x.proposalId p →
      checkExecutor p sender = .ok () → Moves x.proposalId .completed (.ofResult x.result)
  | lock {p : Proposal} {lock : Lock} : Claiming s o past p → Moves p.id .locked (.ofLock lock)
  | undo {p : Proposal} : Claiming s o past p → Moves p.id .proposed .none
  | take {p : Proposal} : Claiming s o past p → GotAcceptance s past p →
      Moves p.id .accepted (.ofExecutor s.peer)
  | run {p : Proposal} : o = .job (.run p) → Moves p.id .running .none
  | complete {p : Proposal} {v : Json} : o = .job (.run p) → Ran past p.id v →
      GotReceipt s past p.id v → Moves p.id .completed (.ofResult v)
  | fail {p q : Proposal} {progress : Option Json} : o = .job (.run p) →
      Moved past p.id .running .none q ∨ Looked past p.id q →
      Moves q.id .failed (.ofProgress progress)

/-- The calls to one peer, with who makes them. -/
inductive Calls : Call → Prop
  | lock {id : String} {p : Proposal} {token : String} {t : Int64} : o.claimed? = some id →
      Looked past id p →
      Calls (requestCall s p.proposer .lock LockRequest.codec ⟨p.id, token, s.peer⟩ t)
  | unlock {id : String} {p : Proposal} {token : String} {t : Int64} : o.claimed? = some id →
      Looked past id p →
      Calls (requestCall s p.proposer .unlock UnlockRequest.codec ⟨p.id, token⟩ t)
  | acceptance {p : Proposal} {t t' : Int64} : Claiming s o past p →
      Calls (requestCall s p.proposer .acceptance Acceptance.codec ⟨p.id, s.peer, t⟩ t')
  | status {p q : Proposal} {state : TaskState} {progress : Option Json} {t t' : Int64} :
      o = .job (.run p) → Moved past p.id .running .none q ∨ Looked past p.id q →
      state = .running ∨ state = .failed →
      Calls (requestCall s q.proposer .status StatusUpdate.codec ⟨q.id, state, progress, t⟩ t')
  | result {p q : Proposal} {v : Json} {t t' : Int64} : o = .job (.run p) → Ran past p.id v →
      Looked past p.id q →
      Calls (requestCall s q.proposer .result TaskResult.codec ⟨p.id, v, t⟩ t')

/-- The calls to all peers, with who makes them. -/
inductive Tells : List Call → Prop
  | proposal {spec : TaskSpec} {p : Proposal} {kept : Bool} {peers : List PeerId} {t : Int64} :
      o = .create spec → Got past (.store (.insert p)) kept →
      Tells (peers.map fun peer => requestCall s peer .proposal Proposal.codec p t)
  | cancellation {id : String} {p q : Proposal} {reason : Option String} {peers : List PeerId}
      {t t' : Int64} : o = .cancel id → Looked past id p → p.proposer = s.peer →
      Moved past id .cancelled .none q →
      Tells (peers.map fun peer =>
        requestCall s peer .cancellation Cancellation.codec ⟨id, reason, t⟩ t')

/-- The jobs that are set going, with who does so. -/
inductive Spawns : Job → Prop
  | claim {sender : PeerId} {p : Proposal} {delay : Nat} : o = .handle sender (.proposal p) →
      Got past (.store (.insert p)) true → Spawns (.claim p.id delay)
  | run {p q : Proposal} : Claiming s o past p → GotAcceptance s past p →
      Moved past p.id .accepted (.ofExecutor s.peer) q →
      (∀ x ∈ past, ∀ job, x.effect ≠ .spawn job) → Spawns (.run q)

/-- The proposals that are kept, with who does so. -/
inductive Inserts : Proposal → Prop
  | create {spec : TaskSpec} {id : String} {t : Int64} : o = .create spec →
      Got past .freshId id → (∀ x ∈ past, ∀ q, x.effect ≠ .store (.insert q)) →
      Inserts (.new id s.peer spec t)
  | receive {sender : PeerId} {p : Proposal} : o = .handle sender (.proposal p) →
      p.proposer ≠ s.peer → Inserts p

/-- What an operation may ask for, given what it was told before. -/
def Permits : Effect → Prop
  | .store (.insert p) => Inserts s o past p
  | .store (.remove id) => ∃ spec p kept, o = .create spec ∧
      Got past (.store (.insert p)) kept ∧ p.id = id
  | .store (.transition id target patch) => Moves s o past id target patch
  | .store (.setProgress id progress) => ∃ sender u p, o = .handle sender (.status u) ∧
      id = u.taskId ∧ progress = u.progress ∧ Looked past id p ∧ checkExecutor p sender = .ok ()
  | .store (.lock r _) => ∃ sender, o = .handle sender (.lock r)
  | .store (.unlock r) => ∃ sender, o = .handle sender (.unlock r)
  | .call c => Calls s o past c
  | .callAll cs => Tells s o past cs
  | .spawn job => Spawns s o past job
  | .execute p => ∃ q, o = .job (.run q) ∧ Moved past q.id .running .none p ∧
      ∀ x ∈ past, ∀ q, x.effect ≠ .execute q
  | _ => True

/-- How an operation may end, given what it was told. -/
def Ends : Outcome Json → Prop := fun outcome =>
  match o with
  | .handle _ (.acceptance x) => ∀ v, outcome = .ok v → ∃ p q, Looked past x.proposalId p ∧
      p.proposer = s.peer ∧ Moved past p.id .accepted (.ofExecutor x.acceptedBy) q
  | .handle _ (.lock r) => ∃ t d, Got past (.store (.lock r t)) d ∧
      outcome = .ok (LockAnswer.codec.encode (.ofDecision d)).canonical
  | .handle _ (.result x) => ∀ v, outcome = .ok v →
      ∃ q, Moved past x.proposalId .completed (.ofResult x.result) q
  | _ => True

end Duties

/-! ## The moves of one operation -/

section

variable {s : Settings} {past : List Entry} {id : String} {target : TaskState} {patch : Patch}
  {sender : PeerId}

/-- Who was sent a result moves nothing but the proposal it looked up, to COMPLETED. -/
theorem moves_of_result {x : TaskResult}
    (hmoves : Moves s (.handle sender (.result x)) past id target patch) :
    id = x.proposalId ∧ target = .completed ∧ patch = .ofResult x.result ∧
      ∃ p, Looked past id p ∧ checkExecutor p sender = .ok () := by
  cases hmoves with
  | result ho hlooked hcheck =>
    cases ho
    exact ⟨rfl, rfl, rfl, _, hlooked, hcheck⟩
  | lock hclaiming | undo hclaiming | take hclaiming =>
    -- Such a move is made by who claims, and a request claims nothing.
    obtain ⟨id, hclaimed, -⟩ := hclaiming.looked
    cases hclaimed
  | _ ho => cases ho

/-- Who was sent an acceptance moves nothing but the proposal it looked up, which was LOCKED then: to
ACCEPTED, or back to PROPOSED if there were files to send. -/
theorem moves_of_acceptance {x : Acceptance}
    (hmoves : Moves s (.handle sender (.acceptance x)) past id target patch) :
    ∃ p, Looked past x.proposalId p ∧ p.id = id ∧ p.proposer = s.peer ∧ p.state = .locked ∧
      ((target = .accepted ∧ patch = .ofExecutor x.acceptedBy) ∨
        (target = .proposed ∧ patch = .none ∧ p.container.inputFiles ≠ [])) := by
  cases hmoves with
  | acceptance ho hlooked hproposer hstate =>
    cases ho
    exact ⟨_, hlooked, rfl, hproposer, hstate, Or.inl ⟨rfl, rfl⟩⟩
  | withdrawal ho hlooked hproposer hstate hfiles =>
    cases ho
    exact ⟨_, hlooked, rfl, hproposer, hstate, Or.inr ⟨rfl, rfl, hfiles⟩⟩
  | lock hclaiming | undo hclaiming | take hclaiming =>
    obtain ⟨id, hclaimed, -⟩ := hclaiming.looked
    cases hclaimed
  | _ ho => cases ho

/-- A claim moves a proposal to ACCEPTED only once it was told that it is accepted. -/
theorem moves_of_claimed {o : Operation} (hmoves : Moves s o past id target patch)
    (ho : o.claimed? ≠ none) (htarget : target = .accepted) :
    ∃ p, p.id = id ∧ Claiming s o past p ∧ GotAcceptance s past p := by
  cases hmoves with
  | take hclaiming haccepted => exact ⟨_, rfl, hclaiming, haccepted⟩
  | lock => cases htarget
  | undo => cases htarget
  | _ heq =>
    rw [heq] at ho
    exact absurd rfl ho

/-- Who moves a proposal to COMPLETED was sent its result, or has run it and was told that its
proposer has the result. -/
theorem moves_of_completed {o : Operation} (hmoves : Moves s o past id target patch)
    (htarget : target = .completed) :
    (∃ sender x, o = .handle sender (.result x) ∧ x.proposalId = id ∧ patch = .ofResult x.result) ∨
      ∃ p v, o = .job (.run p) ∧ p.id = id ∧ Ran past id v ∧ GotReceipt s past id v ∧
        patch = .ofResult v := by
  cases hmoves with
  | result ho => exact Or.inl ⟨_, _, ho, rfl, rfl⟩
  | complete ho hran hreceipt => exact Or.inr ⟨_, _, ho, rfl, hran, hreceipt, rfl⟩
  | status _ _ _ hstatus => rcases hstatus with h | h <;> cases h.symm.trans htarget
  | _ => cases htarget

/-- Only a move to ACCEPTED names an executor, and every one does. -/
theorem acceptedBy_of_moves {o : Operation} (hmoves : Moves s o past id target patch) :
    (target ≠ .accepted ∧ patch.acceptedBy = none) ∨
      (target = .accepted ∧ ∃ y, patch.acceptedBy = some y) := by
  cases hmoves with
  | acceptance => exact Or.inr ⟨rfl, _, rfl⟩
  | take => exact Or.inr ⟨rfl, _, rfl⟩
  | status _ _ _ hstatus =>
    refine Or.inl ⟨fun heq => ?_, rfl⟩
    rcases hstatus with h | h <;> rw [h] at heq <;> cases heq
  | _ => exact Or.inl ⟨nofun, rfl⟩

end

/-! ## What was told stays told -/

section

variable {past : List Entry} {e : Effect} {answer : e.Answer}

theorem got_head : Got (⟨e, answer⟩ :: past) e answer := List.mem_cons_self

theorem Got.cons {x : Entry} (h : Got past e answer) : Got (x :: past) e answer :=
  List.mem_cons_of_mem _ h

theorem Got.mono {later : List Entry} (h : Got past e answer) (hsub : past ⊆ later) :
    Got later e answer := hsub h

variable {s : Settings} {p : Proposal}

theorem GotLock.mono {later : List Entry} (hlock : GotLock s past p)
    (hsub : past ⊆ later) : GotLock s later p := by
  obtain ⟨token, t, r, value, answer, hgot, hrest⟩ := hlock
  exact ⟨token, t, r, value, answer, hsub hgot, hrest⟩

theorem Claiming.mono {o : Operation} {later : List Entry}
    (hclaiming : Claiming s o past p) (hsub : past ⊆ later) : Claiming s o later p := by
  obtain ⟨⟨id, ho, hlooked⟩, hlock⟩ := hclaiming
  exact ⟨⟨id, ho, hsub hlooked⟩, hlock.mono hsub⟩

end

variable {s : Settings} {o : Operation} {past : List Entry}

/-- What is said about success says nothing about failure. -/
theorem of_error_eq_ok {α : Type} {e : SwarmError} {P : α → Prop} :
    ∀ v, (.error e : Outcome α) = .ok v → P v := by
  intro v h
  cases h

/-! ## Requests of other nodes -/

/-- A file is read and sent, and then it has gone, in a frame with its name, or something has failed. -/
theorem obeys_streamFile {asks : List Entry → Effect → Prop} {ends : List Entry → Outcome Unit → Prop}
    {peer : PeerId} {id path : String} (hread : ∀ past path, asks past (.readFile path))
    (hsend : ∀ past c, asks past (.transfer c)) (hfailed : ∀ later e, ends later (.error e))
    (hsent : ∀ n data c, Path.fileName? path = some n → c.peer = peer →
      FileFrame.write ⟨FileFrame.joinName id n, data⟩ = .ok c.bytes →
      ends (⟨.transfer c, .ok ()⟩ :: ⟨.readFile path, .ok data⟩ :: past) (.ok ())) :
    (streamFile s peer id path).Obeys asks ends past := by
  unfold streamFile
  cases hname : Path.fileName? path with
  | none => exact hfailed _ _
  | some n =>
    simp only [obeys_bind, obeys_readFile, then_ok]
    refine ⟨hread _ _, fun r => ?_⟩
    cases r with
    | error fault => exact hfailed _ _
    | ok data =>
      simp only [ofIo_ok, obeys_pure, then_ok, obeys_bind, obeys_transfer]
      refine ⟨hsend _ _, fun answer => ?_⟩
      cases hframe : FileFrame.write ⟨FileFrame.joinName id n, data⟩ with
      | error e =>
        -- The call was made all the same, but what came of it is that error.
        split
        · exact hfailed _ _
        · exact hfailed _ _
        · exact hfailed _ _
      | ok bytes =>
        split
        · exact hsent n data _ hname rfl hframe
        · exact hfailed _ _
        · exact hfailed _ _

/-- Files are read and sent, and nothing else is asked for. -/
theorem obeys_streamFiles {asks : List Entry → Effect → Prop} {peer : PeerId} {id : String}
    {paths : List String} (hread : ∀ past path, asks past (.readFile path))
    (hsend : ∀ past c, asks past (.transfer c)) :
    (streamFiles s peer id paths).Obeys asks (fun _ o => paths = [] → o = .ok ()) past := by
  induction paths generalizing past with
  | nil => simp [streamFiles]
  | cons path paths ih =>
    have hfile : (streamFile s peer id path).Obeys asks (fun _ _ => True) past :=
      obeys_streamFile hread hsend (fun _ _ => trivial) fun _ _ _ _ _ _ => trivial
    simp only [streamFiles, obeys_bind]
    refine hfile.mono fun later r _ => ?_
    cases r with
    | error e => simp
    | ok u => exact (@ih later).mono fun _ _ _ => by simp

theorem obeys_acceptance {sender : PeerId} {x : Acceptance} :
    ((Operation.handle sender (.acceptance x)).action s).Obeys
      (Permits s (.handle sender (.acceptance x)))
      (Ends s (.handle sender (.acceptance x))) [] := by
  simp only [Operation.action, handle, handleAcceptance, obeys_bind, obeys_requireProposal, then_ok,
    then_error, obeys_ite, obeys_throw, obeys_outcome, ne_eq]
  refine ⟨trivial, fun p => ⟨fun _ => of_error_eq_ok, fun hproposer =>
    ⟨fun _ => of_error_eq_ok, fun hstate => ?_⟩⟩, of_error_eq_ok⟩
  have hlooked : Looked [⟨.store (.get x.proposalId), some p⟩] x.proposalId p := got_head
  have hproposer : p.proposer = s.peer := Decidable.not_not.1 hproposer
  have hstate : p.state = .locked := Decidable.not_not.1 hstate
  refine (obeys_streamFiles (fun _ _ => trivial) fun _ _ => trivial).keeping.mono ?_
  rintro later (e | u) ⟨hsub, hdone⟩
  · -- Without files there is nothing to send, and so nothing that fails.
    simp only [obeys_bind, obeys_outcome, obeys_transition, obeys_throw, then_ok, then_error]
    refine ⟨.withdrawal rfl (hlooked.mono hsub) hproposer hstate fun hnil => ?_,
      fun r => of_error_eq_ok⟩
    simpa using hdone hnil
  · simp only [obeys_bind, obeys_transition]
    refine ⟨.acceptance rfl (hlooked.mono hsub) hproposer hstate, ?_⟩
    rintro (e | q)
    · exact of_error_eq_ok
    · simp only [then_ok, obeys_bind, obeys_emit, obeys_now, obeys_pure]
      refine ⟨trivial, fun _ => ⟨trivial, fun t _ _ => ⟨p, q, ?_, hproposer, ?_⟩⟩⟩
      · exact (hlooked.mono hsub).cons.cons.cons
      · exact got_head.cons.cons

theorem obeys_lock {sender : PeerId} {r : LockRequest} :
    ((Operation.handle sender (.lock r)).action s).Obeys (Permits s (.handle sender (.lock r)))
      (Ends s (.handle sender (.lock r))) [] := by
  simp only [Operation.action, handle, handleLock, obeys_bind, obeys_now, obeys_storeLock, then_ok,
    obeys_pure]
  refine ⟨trivial, fun t => ⟨⟨sender, rfl⟩, fun d => ⟨t, d, got_head, rfl⟩⟩⟩

theorem obeys_unlock {sender : PeerId} {r : UnlockRequest} :
    ((Operation.handle sender (.unlock r)).action s).Obeys (Permits s (.handle sender (.unlock r)))
      (Ends s (.handle sender (.unlock r))) [] := by
  simp only [Operation.action, handle, handleUnlock, obeys_bind, obeys_storeUnlock, then_ok]
  refine ⟨⟨sender, rfl⟩, fun answer => ?_⟩
  split <;> trivial

theorem obeys_status {sender : PeerId} {u : StatusUpdate} :
    ((Operation.handle sender (.status u)).action s).Obeys (Permits s (.handle sender (.status u)))
      (Ends s (.handle sender (.status u))) [] := by
  rw [Operation.action, handle, handleStatus, obeys_forExecutor]
  refine ⟨trivial, fun p => ⟨fun _ _ => trivial, fun hcheck => ?_⟩, trivial⟩
  have hlooked : Looked [⟨.store (.get u.taskId), some p⟩] u.taskId p := got_head
  simp only [obeys_bind, obeys_ite, obeys_transition, obeys_setProgress]
  refine ⟨fun hmoves => ⟨?_, ?_⟩, fun _ => ⟨⟨sender, u, p, rfl, rfl, rfl, hlooked, hcheck⟩, ?_⟩⟩
  · refine .status rfl hlooked hcheck ?_
    simp only [moves, Bool.and_eq_true, Bool.or_eq_true, decide_eq_true_eq] at hmoves
    exact hmoves.1.1
  · rintro (e | q) <;> simp [Ends, Permits]
  · rintro (e | q) <;> simp [Ends, Permits]

theorem obeys_result {sender : PeerId} {x : TaskResult} :
    ((Operation.handle sender (.result x)).action s).Obeys (Permits s (.handle sender (.result x)))
      (Ends s (.handle sender (.result x))) [] := by
  rw [Operation.action, handle, handleResult, obeys_forExecutor]
  refine ⟨trivial, fun p => ⟨fun _ _ => of_error_eq_ok, fun hcheck => ?_⟩, of_error_eq_ok⟩
  simp only [obeys_bind, obeys_transition]
  refine ⟨.result rfl got_head hcheck, ?_⟩
  rintro (e | q)
  · exact of_error_eq_ok
  · simp only [then_ok, obeys_bind, obeys_emit, obeys_pure]
    exact ⟨trivial, fun _ _ _ => ⟨q, got_head.cons⟩⟩

theorem obeys_cancellation {sender : PeerId} {c : Cancellation} :
    ((Operation.handle sender (.cancellation c)).action s).Obeys
      (Permits s (.handle sender (.cancellation c)))
      (Ends s (.handle sender (.cancellation c))) [] := by
  simp only [Operation.action, handle, handleCancellation, obeys_bind, obeys_proposal?, then_ok]
  refine ⟨trivial, fun found => ?_⟩
  cases found with
  | none => trivial
  | some p =>
    simp only [obeys_ite, obeys_bind, obeys_throw, then_error, obeys_transition, obeys_pure]
    refine ⟨fun _ => trivial, fun hsender => ⟨fun _ => ⟨?_, ?_⟩, fun _ => trivial⟩⟩
    · exact .cancellation rfl got_head (by simpa using hsender)
    · rintro (e | q) <;> simp [Ends, Permits]

theorem obeys_proposal {sender : PeerId} {p : Proposal} :
    ((Operation.handle sender (.proposal p)).action s).Obeys
      (Permits s (.handle sender (.proposal p))) (Ends s (.handle sender (.proposal p))) [] := by
  simp only [Operation.action, handle, handleProposal, obeys_bind, obeys_ofOutcome]
  cases p.validateReceived with
  | error e => trivial
  | ok _ =>
    simp only [then_ok, obeys_bind, obeys_now, obeys_ite, obeys_pure]
    refine ⟨trivial, fun t => ⟨fun _ => trivial, fun hproposer => ?_⟩⟩
    simp only [obeys_bind, obeys_insertProposal, then_ok, obeys_ite, obeys_pure]
    refine ⟨.receive rfl hproposer, fun kept => ?_⟩
    cases kept with
    | false => simp [Ends]
    | true =>
      simp only [obeys_bind, obeys_emit, obeys_ite, obeys_canHandle, then_ok, scheduleClaim,
        obeys_pure, obeys_random, obeys_spawn]
      refine ⟨fun h => by simp at h, fun _ => ⟨trivial, fun _ =>
        ⟨fun _ => ⟨trivial, fun fits => ?_⟩, fun _ => trivial⟩⟩⟩
      refine ⟨fun _ => ⟨fun _ => ?_, fun _ => ⟨trivial, fun delay => ?_⟩⟩, fun _ => trivial⟩
      · exact ⟨.claim rfl got_head.cons.cons, fun _ => trivial⟩
      · exact ⟨.claim rfl got_head.cons.cons.cons, fun _ => trivial⟩

/-! ## Proposals of its own -/

/-- Telling everybody asks for the peers there are, the time and one round of calls. -/
theorem obeys_requestAll {α : Type} {asks : List Entry → Effect → Prop} {kind : MessageKind}
    {c : Codec α} {payload : α} (hpeers : ∀ past, asks past .knownPeers)
    (hnow : ∀ past, asks past .now)
    (hcalls : ∀ (later : List Entry) (peers : List PeerId) t, past ⊆ later →
      asks later (.callAll (peers.map fun peer => requestCall s peer kind c payload t))) :
    (requestAll s kind c payload).Obeys asks (fun _ _ => True) past := by
  simp only [requestAll, obeys_bind, obeys_knownPeers, then_ok, obeys_now, obeys_callAll,
    obeys_pure]
  refine ⟨hpeers _, fun peers => ⟨hnow _, fun t => ⟨hcalls _ _ _ fun x hx => ?_, fun _ => trivial⟩⟩⟩
  exact List.mem_cons_of_mem _ (List.mem_cons_of_mem _ hx)

theorem obeys_create {spec : TaskSpec} :
    ((Operation.create spec).action s).Obeys (Permits s (.create spec))
      (Ends s (.create spec)) [] := by
  simp only [Operation.action, create, obeys_map, obeys_bind, obeys_ofOutcome]
  cases spec.validate with
  | error e => trivial
  | ok _ =>
    simp only [then_ok, obeys_bind, obeys_freshId, obeys_now, obeys_insertProposal, obeys_outcome]
    refine ⟨trivial, fun id => ⟨trivial, fun t =>
      ⟨.create rfl got_head.cons (by simp), fun kept => ?_⟩⟩⟩
    have hkept : Got [⟨.store (.insert (.new id s.peer spec t)), kept⟩, ⟨.now, t⟩, ⟨.freshId, id⟩]
        (.store (.insert (.new id s.peer spec t))) kept := got_head
    have hsent : (broadcast s (.new id s.peer spec t)).Obeys (Permits s (.create spec))
        (fun _ _ => True)
        [⟨.store (.insert (.new id s.peer spec t)), kept⟩, ⟨.now, t⟩, ⟨.freshId, id⟩] := by
      simp only [broadcast, obeys_bind]
      refine (obeys_requestAll (fun _ => trivial) (fun _ => trivial) ?_).mono ?_
      · exact fun later peers t' hsub => .proposal rfl (hkept.mono hsub)
      · rintro later (e | acks) _
        · trivial
        · simp
    refine hsent.keeping.mono ?_
    rintro later (e | acks) ⟨hsub, -⟩
    · -- The telling failed, so the proposal is removed: by who kept it, which it still knows.
      simp only [then_ok, obeys_bind, obeys_removeProposal, obeys_throw]
      exact ⟨⟨spec, _, _, rfl, hkept.mono hsub, rfl⟩, fun _ => trivial⟩
    · simp [Permits, Ends]

theorem obeys_cancel {id : String} :
    ((Operation.cancel id).action s).Obeys (Permits s (.cancel id)) (Ends s (.cancel id)) [] := by
  simp only [Operation.action, cancel, obeys_map, obeys_bind, obeys_requireProposal, then_ok,
    then_error, obeys_ite, obeys_pure, obeys_outcome, obeys_transition]
  refine ⟨trivial, fun p => ⟨fun _ => trivial, fun _ => ⟨.cancel rfl, ?_⟩⟩, trivial⟩
  rintro (e | q)
  · cases e <;> trivial
  · simp only [obeys_bind, obeys_emit, then_ok, obeys_ite, obeys_pure]
    refine ⟨trivial, fun _ => ⟨fun hproposer => ?_, fun _ => trivial⟩⟩
    simp only [broadcastCancellation, obeys_bind, obeys_now, then_ok]
    refine ⟨trivial, fun t => ?_⟩
    refine (obeys_requestAll (fun _ => trivial) (fun _ => trivial) ?_).mono ?_
    · intro later peers t' hsub
      have hlooked : Looked later id p := hsub got_head.cons.cons.cons
      have hmoved : Moved later id .cancelled .none q := hsub got_head.cons.cons
      exact .cancellation rfl hlooked hproposer hmoved
    · rintro later (e | n) _ <;> trivial

/-! ## Claiming -/

/-- Giving a lock back asks for the time and one call. -/
theorem obeys_releaseRemoteLock {asks : List Entry → Effect → Prop} {p : Proposal} {token : String}
    {ends : List Entry → Outcome Unit → Prop} (hnow : asks past .now)
    (hcall : ∀ (later : List Entry) t, past ⊆ later →
      asks later (.call (requestCall s p.proposer .unlock UnlockRequest.codec ⟨p.id, token⟩ t)))
    (hends : ∀ later, past ⊆ later → ends later (.ok ())) :
    (releaseRemoteLock s p token).Obeys asks ends past := by
  simp only [releaseRemoteLock, obeys_bind, obeys_outcome, obeys_request, then_ok, obeys_pure]
  exact ⟨hnow, fun t => ⟨hcall _ _ fun _ hx => by simp [hx], fun r =>
    hends _ fun _ hx => by simp [hx]⟩⟩

theorem obeys_lockAndAccept {id : String} {p : Proposal} (ho : o.claimed? = some id)
    (hlooked : Looked past id p) (hspawn : ∀ x ∈ past, ∀ job, x.effect ≠ .spawn job) :
    (lockAndAccept s p).Obeys (Permits s o)
      (fun later r => ∀ q, r = .ok q → Spawns s o later (.run q)) past := by
  simp only [lockAndAccept, obeys_bind, obeys_freshToken, then_ok, requestLock, obeys_request]
  refine ⟨trivial, fun token => ⟨trivial, fun t => ⟨.lock ho hlooked.cons.cons, fun r => ?_⟩⟩⟩
  cases hvalue : readAnswer p.proposer r with
  | error e => simp
  | ok value =>
  simp only [then_ok, obeys_bind, obeys_ofOutcome]
  cases hanswer : LockAnswer.codec.read value with
  | error e => simp
  | ok answer =>
  simp only [then_ok, obeys_ite, obeys_throw, then_error, obeys_pure]
  refine ⟨fun _ => by simp, fun hgranted => ?_⟩
  have hgranted : answer.success = true := by simpa using hgranted
  -- From here on the lock is held, and every later effect is one of a claim.
  have hclaiming : ∀ later : List Entry,
      (⟨.call (requestCall s p.proposer .lock LockRequest.codec ⟨p.id, token, s.peer⟩ t), r⟩ ::
        ⟨.now, t⟩ :: ⟨.freshToken, token⟩ :: past) ⊆ later → Claiming s o later p :=
    fun later hsub => ⟨⟨id, ho, hsub hlooked.cons.cons.cons⟩,
      token, t, r, value, answer, hsub got_head, hvalue, hanswer, hgranted⟩
  have hunlock : ∀ (later : List Entry) t', past ⊆ later → Permits s o later
      (.call (requestCall s p.proposer .unlock UnlockRequest.codec ⟨p.id, token⟩ t')) :=
    fun later t' hsub => .unlock ho (hsub hlooked)
  simp only [obeys_bind, obeys_now, then_ok, obeys_outcome, obeys_transition]
  refine ⟨trivial, fun t1 => ⟨.lock (hclaiming _ fun _ hx => by simp [hx]), ?_⟩⟩
  rintro (e | locked)
  · -- The own copy has moved on: the lock goes back.
    simp only [obeys_bind]
    refine obeys_releaseRemoteLock trivial ?_ fun _ _ => by simp
    exact fun later t' hsub => hunlock _ _ fun _ hx => hsub (by simp [hx])
  · simp only [obeys_bind, obeys_outcome, requestAcceptance, obeys_now, then_ok, obeys_request]
    refine ⟨trivial, fun t2 => ⟨trivial, fun t3 =>
      ⟨.acceptance (hclaiming _ fun _ hx => by simp [hx]), fun r' => ?_⟩⟩⟩
    cases hvalue' : readAnswer p.proposer r' with
    | error e =>
      -- Not accepted: the lock goes back, and so does the own copy.
      simp only [then_error, obeys_bind]
      refine obeys_releaseRemoteLock trivial ?_ fun later hsub => ?_
      · exact fun later t' hsub => hunlock _ _ fun _ hx => hsub (by simp [hx])
      simp only [then_ok, obeys_bind, obeys_outcome, obeys_transition, obeys_throw, then_error]
      exact ⟨.undo (hclaiming _ fun _ hx => hsub (by simp [hx])), fun _ _ h => by simp at h⟩
    | ok value' =>
      simp only [then_ok, obeys_pure, obeys_transition]
      refine ⟨.take (hclaiming _ fun _ hx => by simp [hx])
        ⟨t2, t3, r', value', got_head, hvalue'⟩, ?_⟩
      rintro r q rfl
      exact .run (hclaiming _ fun _ hx => by simp [hx]) ⟨t2, t3, r', value', got_head.cons, hvalue'⟩
        got_head (by simpa using hspawn)

/-- What is left to a claim that has a slot: to set the task going, or to give the slot back. -/
def AfterClaim (asks : List Entry → Effect → Prop) (ends : List Entry → Outcome Bool → Prop) (id : String)
    (later : List Entry) : Outcome Proposal → Prop
  | .ok q => asks later (.spawn (.run q)) ∧ ∀ u, ends (⟨.spawn (.run q), u⟩ :: later) (.ok true)
  | .error _ => asks later (.store (.finish id)) ∧
      ∀ u, ends (⟨.store (.finish id), u⟩ :: later) (.ok false)

/-- A claim looks for its proposal, which has to be there and PROPOSED, takes a slot for it, and goes for
its lock. -/
theorem obeys_attempt_of {id : String} {asks : List Entry → Effect → Prop}
    {ends : List Entry → Outcome Bool → Prop} (hget : asks past (.store (.get id)))
    (hgone : ends (⟨.store (.get id), none⟩ :: past) (.ok false))
    (hlate : ∀ p, ends (⟨.store (.get id), some p⟩ :: past) (.ok false))
    (hslot : ∀ p, asks (⟨.store (.get id), some p⟩ :: past) (.store (.reserve id p.requirements)))
    (hfull : ∀ p, ends (⟨.store (.reserve id p.requirements), false⟩ :: ⟨.store (.get id), some p⟩ :: past)
      (.ok false))
    (hclaim : ∀ p, (lockAndAccept s p).Obeys asks (AfterClaim asks ends id)
      (⟨.store (.reserve id p.requirements), true⟩ :: ⟨.store (.get id), some p⟩ :: past)) :
    (attempt s id).Obeys asks ends past := by
  simp only [attempt, claim, obeys_bind, obeys_outcome, obeys_requireProposal, then_ok, then_error,
    obeys_ite, obeys_throw, obeys_reserve, obeys_pure]
  refine ⟨hget, fun p => ⟨fun _ => hlate p, fun _ => ⟨hslot p, fun reserved => ?_⟩⟩, hgone⟩
  cases reserved with
  | false => exact ⟨fun _ => hfull p, fun htaken => absurd rfl htaken⟩
  | true =>
    refine ⟨fun hrefused => (by cases hrefused), fun _ => (hclaim p).mono ?_⟩
    rintro later (e | q) ⟨hasks, hends⟩
    · simp only [obeys_bind, obeys_releaseSlot, then_ok, obeys_throw, obeys_pure]
      exact ⟨hasks, hends⟩
    · simp only [obeys_pure, then_ok, obeys_bind, obeys_spawn]
      exact ⟨hasks, hends⟩

theorem obeys_attempt {id : String} (ho : o.claimed? = some id)
    (hpast : ∀ x ∈ past, ∀ job, x.effect ≠ .spawn job) :
    (attempt s id).Obeys (Permits s o) (fun _ _ => True) past := by
  refine obeys_attempt_of trivial trivial (fun _ => trivial) (fun _ => trivial) (fun _ => trivial) fun p => ?_
  refine (obeys_lockAndAccept ho got_head.cons (by simpa using hpast)).mono ?_
  rintro later (e | q) hspawns
  · exact ⟨trivial, fun _ => trivial⟩
  · exact ⟨hspawns q rfl, fun _ => trivial⟩

/-- A node that makes a claim of itself pauses first, and nobody looks at what the claim comes to. -/
theorem obeys_claimJob {id : String} {delay : Nat} {asks : List Entry → Effect → Prop}
    {ends : List Entry → Outcome Json → Prop} :
    ((Operation.job (.claim id delay)).program s).Obeys asks ends past ↔
      asks past (.sleep delay) ∧ ∀ u, (attempt s id).Obeys asks (fun later _ => ends later (.ok .null))
        (⟨.sleep delay, u⟩ :: past) := by
  show Action.Obeys asks ends past ((Operation.job (.claim id delay)).action s) ↔ _
  simp only [Operation.action, obeys_map, obeys_lift]
  refine and_congr_right fun _ => forall_congr' fun _ => ?_
  -- The outcome is dropped, error or not, so the bind is one of programs and not of actions.
  show Program.Obeys _ _ _ (Program.bind (attempt s id).run _) ↔ _
  exact Program.obeys_bind

/-- Nor does anybody look at what running a task comes to. -/
theorem obeys_runJob {p : Proposal} {asks : List Entry → Effect → Prop}
    {ends : List Entry → Outcome Json → Prop} :
    ((Operation.job (.run p)).program s).Obeys asks ends past ↔
      (startTask s p).Obeys asks (fun later _ => ends later (.ok .null)) past := by
  show Action.Obeys asks ends past ((Operation.job (.run p)).action s) ↔ _
  simp only [Operation.action, obeys_map, obeys_lift]
  exact Program.obeys_bind

/-- A claim tries to take its proposal on, after a pause if its node makes it of itself. Only a user is
told what it comes to. -/
theorem obeys_of_claimed {id : String} {asks : List Entry → Effect → Prop}
    {ends : List Entry → Outcome Json → Prop} (ho : o.claimed? = some id)
    (hpause : ∀ delay, asks [] (.sleep delay))
    (hattempt : ∀ past : List Entry, (∀ x ∈ past, ∃ delay, x.effect = .sleep delay) →
      (attempt s id).Obeys asks (fun later r => (o = .attempt id → ends later (r.map Json.bool)) ∧
        ((∀ id, o ≠ .attempt id) → ends later (.ok .null))) past) :
    (o.program s).Obeys asks ends [] := by
  cases o with
  | attempt id =>
    cases ho
    show Action.Obeys _ _ _ (Operation.action s (.attempt id))
    simp only [Operation.action, obeys_map]
    exact (hattempt [] (by simp)).mono fun later r h => h.1 rfl
  | job j =>
    cases j with
    | claim id delay =>
      cases ho
      refine obeys_claimJob.2 ⟨hpause delay, fun u => ?_⟩
      exact (hattempt [⟨.sleep delay, u⟩] (by simp)).mono fun later r h => h.2 (by simp)
    | run p => cases ho
  | create | cancel | query | handle => cases ho

/-! ## Running -/

/-- Telling the proposer how a task is doing asks for the time and one call. -/
theorem obeys_sendStatus {p q : Proposal} {state : TaskState} {progress : Option Json}
    {ends : List Entry → Outcome Unit → Prop} (hq : ∀ later, past ⊆ later →
      Moved later p.id .running .none q ∨ Looked later p.id q)
    (hstate : state = .running ∨ state = .failed)
    (hends : ∀ later : List Entry, past ⊆ later →
      (∀ x ∈ later, ∀ r, x.effect = .execute r → x ∈ past) → ends later (.ok ())) :
    (sendStatus s q state progress).Obeys (Permits s (.job (.run p))) ends past := by
  simp only [sendStatus, obeys_bind, obeys_outcome, obeys_now, obeys_request, then_ok, obeys_pure]
  refine ⟨trivial, fun t => ⟨trivial, fun t' =>
    ⟨.status rfl (hq _ fun _ hx => by simp [hx]) hstate, fun r => ?_⟩⟩⟩
  exact hends _ (fun _ hx => by simp [hx]) (by simp +contextual)

/-- A task that fails is noted so, and its proposer told. -/
theorem obeys_failTask {p q : Proposal} {text : String} {ends : List Entry → Outcome Unit → Prop}
    (hq : ∀ later, past ⊆ later → Moved later p.id .running .none q ∨ Looked later p.id q)
    (hends : ∀ later, past ⊆ later → ends later (.ok ())) :
    (failTask s q text).Obeys (Permits s (.job (.run p))) ends past := by
  simp only [failTask, obeys_bind, obeys_outcome, obeys_transition, then_ok, obeys_emit]
  refine ⟨.fail rfl (hq _ fun _ hx => hx), fun r => ⟨trivial, fun _ => ?_⟩⟩
  refine obeys_sendStatus ?_ (.inr rfl) fun later hsub _ => hends _ fun _ hx => hsub (by simp [hx])
  exact fun later hsub => hq _ fun _ hx => hsub (by simp [hx])

theorem obeys_completeTask {p : Proposal} {v : Json} (hran : Ran past p.id v) :
    (completeTask s p.id v).Obeys (Permits s (.job (.run p))) (fun _ _ => True) past := by
  simp only [completeTask, obeys_bind, obeys_requireProposal, then_ok, then_error, obeys_now,
    obeys_outcome, obeys_request]
  have hran' : ∀ later, past ⊆ later → Ran later p.id v := fun later hsub =>
    hran.imp fun q h => ⟨hsub h.1, hsub h.2⟩
  refine ⟨trivial, fun q => ⟨trivial, fun t => ⟨trivial, fun t' =>
    ⟨.result rfl (hran' _ fun _ hx => by simp [hx]) got_head.cons.cons, fun r => ?_⟩⟩⟩, trivial⟩
  cases hvalue : readAnswer q.proposer r with
  | error e =>
    simp only [obeys_bind]
    refine obeys_failTask (fun later hsub => .inr (hsub got_head.cons.cons.cons)) fun later _ => ?_
    trivial
  | ok value =>
    simp only [obeys_bind, obeys_transition]
    have hreceipt : GotReceipt s (⟨_, r⟩ :: ⟨.now, t'⟩ :: ⟨.now, t⟩ ::
        ⟨.store (.get p.id), some q⟩ :: past) p.id v :=
      ⟨q, t, t', r, value, got_head.cons.cons.cons, got_head, hvalue⟩
    refine ⟨.complete rfl (hran' _ fun _ hx => by simp [hx]) hreceipt, ?_⟩
    rintro (e | q') <;> simp [Permits]

theorem obeys_startTask {p : Proposal} :
    (startTask s p).Obeys (Permits s (.job (.run p))) (fun _ _ => True) [] := by
  simp only [startTask, obeys_bind, obeys_outcome, obeys_transition, then_ok]
  refine ⟨.run rfl, ?_⟩
  rintro (e | q)
  · simp only [obeys_bind, obeys_releaseSlot, then_ok, obeys_throw]
    exact ⟨trivial, fun _ => trivial⟩
  · have hmoved : Moved [⟨.store (.transition p.id .running .none), .ok q⟩] p.id .running .none q :=
      got_head
    simp only [obeys_bind, obeys_emit, then_ok]
    refine ⟨trivial, fun _ => ?_⟩
    refine obeys_sendStatus (fun later hsub => .inl (hsub hmoved.cons)) (.inl rfl)
      fun later hsub hnew => ?_
    simp only [then_ok, obeys_bind, obeys_execute]
    refine ⟨⟨p, rfl, hsub hmoved.cons, ?_⟩, ?_⟩
    · -- Nothing was run before: the status is told by calls alone.
      intro x hx r hr
      have hx := hnew x hx r hr
      simp only [List.mem_cons, List.not_mem_nil, or_false] at hx
      rcases hx with rfl | rfl <;> cases hr
    · have hmoved' : Moved later p.id .running .none q := hsub hmoved.cons
      rintro (e | v)
      · simp only [obeys_bind]
        refine obeys_failTask (fun later' hsub' => .inl (hsub' hmoved'.cons)) fun later' _ => ?_
        simp only [then_ok, obeys_pure, obeys_bind, obeys_releaseSlot, obeys_ofOutcome]
        exact ⟨trivial, fun _ => trivial⟩
      · simp only [obeys_bind, obeys_outcome]
        have hran : Ran (⟨.execute q, .ok v⟩ :: later) p.id v := ⟨q, hmoved'.cons, got_head⟩
        refine (obeys_completeTask hran).mono fun later' r _ => ?_
        simp only [then_ok, obeys_bind, obeys_releaseSlot, obeys_ofOutcome]
        exact ⟨trivial, fun _ => trivial⟩

theorem obeys_job {j : Job} :
    ((Operation.job j).program s).Obeys (Permits s (.job j)) (Ends s (.job j)) [] := by
  cases j with
  | claim id delay =>
    have hclaimed : (Operation.job (.claim id delay)).claimed? = some id := rfl
    exact obeys_claimJob.2 ⟨trivial, fun _ =>
      (obeys_attempt hclaimed (by simp)).mono fun _ _ _ => trivial⟩
  | run p => exact obeys_runJob.2 (obeys_startTask.mono fun _ _ _ => trivial)

theorem obeys_query {c : Command} (h : c.isQuery = true) :
    ((Operation.query c h).action s).Obeys (Permits s (.query c h)) (Ends s (.query c h)) [] := by
  refine ⟨?_, fun _ => trivial⟩
  cases c <;> trivial

/-! ## Every operation -/

/-- Every operation asks only for what it may ask for, and ends only as it may end. -/
theorem obeys_program (s : Settings) (o : Operation) :
    (o.program s).Obeys (Permits s o) (Ends s o) [] := by
  cases o with
  | create spec => exact obeys_create
  | cancel id => exact obeys_cancel
  | attempt id =>
    have h : (attempt s id).Obeys (Permits s (.attempt id)) (fun _ _ => True) [] :=
      obeys_attempt rfl (by simp)
    exact obeys_map.2 (h.mono fun _ _ _ => trivial)
  | query c h => exact obeys_query h
  | job j => exact obeys_job
  | handle sender m =>
    cases m with
    | proposal p => exact obeys_proposal
    | acceptance x => exact obeys_acceptance
    | status u => exact obeys_status
    | lock r => exact obeys_lock
    | unlock r => exact obeys_unlock
    | result x => exact obeys_result
    | cancellation c => exact obeys_cancellation

end TaskSwarm.Node
