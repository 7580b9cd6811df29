/-
Proposer and executor agree on the result.

Among members, whatever is kept under the id of a proposal is that proposal, and
it is COMPLETED for one of two reasons (`Run.completed_by`): its proposer took a
result, or another node was told that its proposer did. A result comes from who
ran the task. The proposer's record therefore holds what the one executor got, if
it holds a result at all, and a copy elsewhere is COMPLETED only after the record
was, with the same result: the record comes first, and never changes again.
-/
import TaskSwarm.Proofs.Swarm.Winner

set_option autoImplicit false

namespace TaskSwarm

/-- A task is run under an id. -/
def Event.Runs (k : String) (event : Event) : Prop :=
  ∃ a p result, event = .asked a (.execute p) result ∧ p.id = k

namespace Swarm

open TaskSwarm.Node

variable {w : Swarm} {h newer older : List Event} {a b c x : Activity} {n : PeerId} {k : String}
  {p q r : Proposal} {spec : TaskSpec} {v : Json}

/-! ## Results -/

/-- A proposal whose task is done stays as it is, apart from its notes of progress. -/
theorem completed_step {event : Event} (hp : w.record h n k = some p)
    (hstate : p.state = .completed) (hr : w.record (event :: h) n k = some r) :
    r.state = .completed ∧ r.result = p.result := by
  rcases eq_or_changes hp hr with rfl | ⟨a, c, answer, timeout, -, -, hchanges⟩
  · exact ⟨hstate, rfl⟩
  · -- COMPLETED is terminal, so whatever would move the proposal on fails.
    have hstuck : ∀ target, p.state.canBecome target = true → False := by
      intro target hcan
      rw [hstate, TaskState.canBecome_of_terminal rfl] at hcan
      cases hcan
    cases hchanges with
    | progressed => exact ⟨hstate, rfl⟩
    | locked _ hgrant => exact (hstuck _ (Proposal.canBecome_of_grant hgrant)).elim
    | unlocked _ hrelease =>
      have hmoved := (Proposal.release_eq_ok_iff.1 hrelease).2
      exact (hstuck _ (Store.canBecome_of_moved hmoved)).elim
    | moved hmoved => exact (hstuck _ (Store.canBecome_of_moved hmoved)).elim

/-- A record that was not made COMPLETED became so by a move, which wrote the result. -/
theorem Run.completed_by (run : w.Run h)
    (hnew : ∀ a p kept, .asked a (.store (.insert p)) kept ∈ h → p.id = k → p.state ≠ .completed)
    (hr : w.record h n k = some r) (hstate : r.state = .completed) :
    ∃ a v q older,
      .asked a (.store (.transition k .completed (.ofResult v))) (.ok q) :: older <:+ h ∧
        a.peer = n ∧ r.result = some v := by
  induction h generalizing r with
  | nil => cases hr
  | cons event h ih =>
    have hbefore : ∀ a p kept, .asked a (.store (.insert p)) kept ∈ h → p.id = k →
        p.state ≠ .completed :=
      fun a p kept hmem => hnew a p kept (List.mem_cons_of_mem _ hmem)
    cases hp : w.record h n k with
    | none =>
      obtain ⟨hid, a, kept, rfl, -⟩ := inserted_of_none hp hr
      exact absurd hstate (hnew a r kept List.mem_cons_self hid)
    | some p =>
      by_cases hdone : p.state = .completed
      · -- It was COMPLETED before: the move is an earlier one.
        obtain ⟨a, v, q, older, hsuffix, hpeer, hresult⟩ := ih run.tail hbefore hp hdone
        have hsame := (completed_step hp hdone hr).2
        exact ⟨a, v, q, older, hsuffix.trans (List.suffix_cons _ _), hpeer, hsame.trans hresult⟩
      · rcases eq_or_changes hp hr with rfl | ⟨a, c, answer, timeout, rfl, hpeer, hchanges⟩
        · exact absurd hstate hdone
        · cases hchanges with
          | progressed => exact absurd hstate hdone
          | locked _ hgrant =>
            obtain ⟨-, rfl⟩ := Proposal.grant_eq_ok_iff.1 hgrant
            cases hstate
          | unlocked _ hrelease =>
            have hmoved := (Proposal.release_eq_ok_iff.1 hrelease).2
            rw [Store.state_of_moved hmoved] at hstate
            cases hstate
          | @moved target patch _ hmoved =>
            subst hpeer
            -- This is the move. Whoever makes it says with which result.
            have hanswer : answer = .ok r := run.possible.trans (Store.reply_transition hp hmoved)
            have hresult := Store.result_of_moved hmoved
            rw [Store.state_of_moved hmoved] at hstate
            have hpatch : ∃ v, patch = .ofResult v := by
              rcases moves_of_completed run.permits hstate with h | h
              · obtain ⟨-, y, -, -, hpatch⟩ := h
                exact ⟨y.result, hpatch⟩
              · obtain ⟨-, v, -, -, -, -, hpatch⟩ := h
                exact ⟨v, hpatch⟩
            obtain ⟨v, hpatch⟩ := hpatch
            subst hanswer hstate hpatch
            exact ⟨a, v, r, h, List.suffix_rfl, rfl, hresult⟩

/-- The record of a proposal of its own stays COMPLETED, with its result. -/
theorem Run.completed_since (run : w.Run (newer ++ older)) (hp : w.record older n k = some p)
    (hpown : p.proposer = n) (hstate : p.state = .completed)
    (hr : w.record (newer ++ older) n k = some r) (hrown : r.proposer = n) :
    r.state = .completed ∧ r.result = p.result := by
  induction newer generalizing r with
  | nil =>
    rw [List.nil_append, hp] at hr
    cases hr
    exact ⟨hstate, rfl⟩
  | cons event newer ih =>
    obtain ⟨q, hq, hqown⟩ := run.own_since hp hpown hr hrown
    obtain ⟨hqstate, hqresult⟩ := ih run.tail hq hqown
    obtain ⟨hrstate, hrresult⟩ := completed_step hq hqstate hr
    exact ⟨hrstate, hrresult.trans hqresult⟩

/-- A request with a result that was answered with success had completed the record by then. -/
theorem Run.completed_of_ended (run : w.Run h) {sender : PeerId} {y : TaskResult}
    (hended : .ended x (.ok v) ∈ h) (hx : x.operation = .handle sender (.result y)) :
    ∃ older q, older <:+ h ∧ w.record older x.peer y.proposalId = some q ∧
      q.state = .completed ∧ q.result = some y.result := by
  obtain ⟨newer, before, rfl⟩ := List.append_of_mem hended
  have hends := run.of_append.ends
  rw [hx] at hends
  obtain ⟨q, hmoved⟩ := hends v rfl
  obtain ⟨older, hmove, hq⟩ := run.of_append.tail.record_of_moved hmoved
  obtain ⟨p, -, hmoved, -⟩ := (run.of_append.tail.of_suffix hmove).record_of_transition
  refine ⟨_, q, hmove.trans suffix_append_cons, hq, ?_, ?_⟩
  · rw [Store.state_of_moved hmoved]
  · rw [Store.result_of_moved hmoved]
    rfl

/-! ## What members keep under the id -/

/-- Among members, whatever is kept under the id is the proposal as its proposer made it. -/
theorem Run.inserted_of_created (run : w.Run h) (hall : ∀ n, w.isMember n)
    (created : w.Created h c spec k) {kept : Bool}
    (hmem : .asked a (.store (.insert p)) kept ∈ h) (hid : p.id = k) :
    p.proposer = c.peer ∧ p.state = .proposed := by
  have hbegan : .began a ∈ h := run.began_of_mem hmem
  obtain ⟨newer, older, rfl⟩ := List.append_of_mem hmem
  cases run.of_append.permits with
  | create ho =>
    -- The id was given to one activity only.
    have hac := run.creator_unique created hmem ho hid
    rw [hac]
    exact ⟨w.named c.peer, rfl⟩
  | @receive sender p ho hforeign => exact run.told_by_member created hbegan ho (hall sender) hid

/-- Among members, a record under the id became COMPLETED by a move, which wrote the result. -/
theorem Run.completed_of_created (run : w.Run h) (hall : ∀ n, w.isMember n)
    (created : w.Created h c spec k) (hr : w.record h n k = some r) (hstate : r.state = .completed) :
    ∃ a v q older,
      .asked a (.store (.transition k .completed (.ofResult v))) (.ok q) :: older <:+ h ∧
        a.peer = n ∧ r.result = some v := by
  refine run.completed_by ?_ hr hstate
  intro a p kept hmem hid
  rw [(run.inserted_of_created hall created hmem hid).2]
  decide

/-- Among members, what is kept under the id names its proposer. -/
theorem Run.proposer_of_created (run : w.Run h) (hall : ∀ n, w.isMember n)
    (created : w.Created h c spec k) (hsuffix : older <:+ h) (hr : w.record older n k = some r) :
    r.proposer = c.peer := by
  obtain ⟨a, p, kept, hmem, -, hid, hkin⟩ := inserted_of_record hr
  have hinserted := run.inserted_of_created hall created (hsuffix.subset hmem) hid
  exact hkin.proposer.trans hinserted.1

/-- What is run under the id is the task of the proposal. -/
theorem Run.proposer_of_execute (run : w.Run h) (hall : ∀ n, w.isMember n)
    (created : w.Created h c spec k) {result : Outcome Json}
    (hmem : .asked a (.execute q) result ∈ h) (hid : q.id = k) : q.proposer = c.peer := by
  obtain ⟨newer, older, rfl⟩ := List.append_of_mem hmem
  obtain ⟨p, -, hmoved, -⟩ := run.of_append.permits
  have hrun := run.of_append.tail
  have hpid : p.id = k := (hrun.id_of_moved hmoved).symm.trans hid
  rw [hpid] at hmoved
  obtain ⟨before, hmove, hq⟩ := hrun.record_of_moved hmoved
  exact run.proposer_of_created hall created (hmove.trans suffix_append_cons) hq

/-- The task is run once. -/
theorem Run.runs_once (run : w.Run (newer ++ .asked a (.execute p) (.ok v) :: older))
    (hall : ∀ n, w.isMember n)
    (created : w.Created (newer ++ .asked a (.execute p) (.ok v) :: older) c spec k)
    (hfiles : spec.container.inputFiles = []) (hid : p.id = k) :
    ∀ event ∈ newer ++ older, ¬ event.Runs k := by
  rintro event hmem ⟨b, q, result, rfl, hid'⟩
  have hp := run.proposer_of_execute hall created (List.mem_append_right _ List.mem_cons_self) hid
  -- Another run is later or earlier than this one; either way one of the two comes second.
  rcases List.mem_append.1 hmem with hmem | hmem
  · obtain ⟨later, between, rfl⟩ := List.append_of_mem hmem
    have hq := run.proposer_of_execute hall created (List.mem_append_left _ hmem) hid'
    have hbefore : .asked a (.execute p) (.ok v) ∈
        between ++ .asked a (.execute p) (.ok v) :: older :=
      List.mem_append_right _ List.mem_cons_self
    rw [List.append_assoc, List.cons_append] at run created
    exact run.execute_once created hfiles (List.suffix_append _ _) hid' hq hbefore hid hp
  · have hq := run.proposer_of_execute hall created
      (List.mem_append_right _ (List.mem_cons_of_mem _ hmem)) hid'
    exact run.execute_once created hfiles (List.suffix_append _ _) hid hp hmem hid' hq

/-- A result that a member sends goes to the proposer, and is what running the task came to. -/
theorem Run.run_of_result (run : w.Run h) (hall : ∀ n, w.isMember n)
    (created : w.Created h c spec k) (hbegan : .began x ∈ h) {sender : PeerId} {y : TaskResult}
    (ho : x.operation = .handle sender (.result y)) (hid : y.proposalId = k) :
    x.peer = c.peer ∧
      ∃ b p v, .asked b (.execute p) (.ok v) ∈ h ∧ p.id = k ∧ v.Carried y.result := by
  obtain ⟨b, before, hbefore, -, -, hsends⟩ := run.sent hbegan ho (hall sender)
  cases hsends with
  | @result p q v _ _ hran hlooked hto hsame hcarried =>
    have hpid : p.id = k := hsame.symm.trans hid
    rw [hpid] at hran hlooked
    have hrun := run.of_suffix hbefore
    obtain ⟨older, hlook, hq⟩ := hrun.record_of_looked hlooked
    have hqproposer := run.proposer_of_created hall created (hlook.trans hbefore) hq
    obtain ⟨p', hmoved, hexecute⟩ := hran
    refine ⟨hto.symm.trans hqproposer, b, p', v, hbefore.subset (got_own_iff.1 hexecute), ?_,
      hcarried⟩
    exact hrun.id_of_moved hmoved

/-! ## Agreement -/

/-- The result that the proposer's record holds is what its executor got from running the task. -/
theorem Run.completed_at_proposer (run : w.Run h) (hall : ∀ n, w.isMember n)
    (created : w.Created h c spec k) (hfiles : spec.container.inputFiles = [])
    (hsurvives : ∀ a p v, .asked a (.execute p) (.ok v) ∈ h → p.id = k → v.Survives)
    (hr : w.record h c.peer k = some r) (hstate : r.state = .completed) :
    ∃ newer a p v older, h = newer ++ .asked a (.execute p) (.ok v) :: older ∧ p.id = k ∧
      (∀ event ∈ newer ++ older, ¬ event.Runs k) ∧ r.acceptedBy = some a.peer ∧
        r.result = some v := by
  obtain ⟨a, u, q, older, hsuffix, hpeer, hresult⟩ :=
    run.completed_of_created hall created hr hstate
  have hrun := run.of_suffix hsuffix
  -- The proposer does not run the task, so it was sent the result.
  obtain ⟨p, hp, -, -⟩ := hrun.record_of_transition
  have hpown := run.proposer_of_created hall created ((List.suffix_cons _ _).trans hsuffix) hp
  rcases moves_of_completed hrun.permits rfl with ⟨sender, y, ho, hid, hpatch⟩ | ⟨p', v, ho, -⟩
  · have hbegan : .began a ∈ h := run.began_of_mem (hsuffix.subset List.mem_cons_self)
    obtain ⟨-, b, p', v, hexecute, hp'id, hcarried⟩ := run.run_of_result hall created hbegan ho hid
    -- What the sender got from the task is what arrived, and what was written.
    have hv : y.result = v := hsurvives b p' v hexecute hp'id y.result hcarried
    have hu : u = y.result := by injection hpatch with _ hresult; injection hresult
    -- The sender ran the task because its claim was accepted, so the record names it.
    obtain ⟨newer', older', heq'⟩ := List.append_of_mem hexecute
    subst heq'
    have hp'proposer := run.proposer_of_execute hall created hexecute hp'id
    obtain ⟨d, j, before, -, -, -, -, x, place, call, hx, -, sender', z, hz, hby⟩ :=
      run.claim_of_execute created (List.suffix_append _ _) hp'id hp'proposer
    refine ⟨newer', b, p', v, older', rfl, hp'id, run.runs_once hall created hfiles hp'id, ?_, ?_⟩
    · rw [run.executor_of_accepts created hfiles hx hz hr, hby]
    · rw [hresult, hu, hv]
  · -- Who runs a task does not move a record of its own.
    rcases hrun.mover_of_own hp (hpown.trans hpeer.symm) with hcancel | ⟨sender, m, hhandle⟩
    · cases ho.symm.trans hcancel
    · cases ho.symm.trans hhandle

/-- A copy elsewhere is COMPLETED only once the proposer's record is, and with the same result. -/
theorem Run.completed_elsewhere (run : w.Run h) (hall : ∀ n, w.isMember n)
    (created : w.Created h c spec k)
    (hsurvives : ∀ a p v, .asked a (.execute p) (.ok v) ∈ h → p.id = k → v.Survives)
    (hp : w.record h n k = some p) (hstate : p.state = .completed) (hne : n ≠ c.peer)
    (hr : w.record h c.peer k = some r) : r.state = .completed ∧ r.result = p.result := by
  obtain ⟨a, u, q, older, hsuffix, hpeer, hresult⟩ :=
    run.completed_of_created hall created hp hstate
  have hbefore : older <:+ h := (List.suffix_cons _ _).trans hsuffix
  have hrun := run.of_suffix hsuffix
  rcases moves_of_completed hrun.permits rfl with ⟨sender, y, ho, hid, -⟩ |
    ⟨p', v, ho, hp'id, hran, hreceipt, hpatch⟩
  · -- Results go to the proposer.
    have hbegan : .began a ∈ h := run.began_of_mem (hsuffix.subset List.mem_cons_self)
    obtain ⟨hto, -⟩ := run.run_of_result hall created hbegan ho hid
    exact absurd (hpeer.symm.trans hto) hne
  · -- The node ran the task and was told that its result was taken.
    obtain ⟨-, x, answer, sender, y, -, hended, -, hx, hid, hcarried⟩ :=
      hrun.tail.received hreceipt fun p _ => hall p.proposer
    have hu : u = v := by injection hpatch with _ hresult; injection hresult
    obtain ⟨p₁, hmoved, hexecute⟩ := hran
    have hv : y.result = v :=
      hsurvives a p₁ v (hbefore.subset (got_own_iff.1 hexecute)) (hrun.tail.id_of_moved hmoved)
        y.result hcarried
    have hbegan : .began x ∈ h := run.began_of_mem (hbefore.subset hended)
    obtain ⟨hto, -⟩ := run.run_of_result hall created hbegan hx hid
    -- The proposer took the result before it answered, and keeps it.
    obtain ⟨first, q', hfirst, hq', hdone, hq'result⟩ :=
      run.completed_of_ended (hbefore.subset hended) hx
    rw [hto, hid] at hq'
    have hq'own := run.proposer_of_created hall created hfirst hq'
    have hrown := run.proposer_of_created hall created List.suffix_rfl hr
    obtain ⟨later, rfl⟩ := hfirst
    obtain ⟨hrstate, hrresult⟩ := run.completed_since hq' hq'own hdone hr hrown
    refine ⟨hrstate, ?_⟩
    rw [hrresult, hq'result, hv, hresult, hu]

/-- **Result agreement.** Among members, of a proposal without files that a node has created: when
the proposer's record is COMPLETED, the task was run exactly once, by the executor that the record
names, and the record holds what that run came to; and when a copy is COMPLETED, whoever keeps it,
then so is the proposer's record, if there still is one, with the same result. This is on condition
that what the run comes to survives being sent. -/
theorem Run.results_agree (run : w.Run h) (hall : ∀ n, w.isMember n) (hfresh : .asked c .freshId k ∈ h)
    (hcreate : c.operation = .create spec) (hfiles : spec.container.inputFiles = [])
    (hsurvives : ∀ a p v, .asked a (.execute p) (.ok v) ∈ h → p.id = k → v.Survives)
    (hr : w.record h c.peer k = some r) :
    (r.state = .completed →
      ∃ newer a p v older, h = newer ++ .asked a (.execute p) (.ok v) :: older ∧ p.id = k ∧
        (∀ event ∈ newer ++ older, ¬ event.Runs k) ∧ r.acceptedBy = some a.peer ∧
          r.result = some v) ∧
    ∀ n p, w.record h n k = some p → p.state = .completed →
      r.state = .completed ∧ r.result = p.result := by
  have created : w.Created h c spec k := ⟨hfresh, hcreate, fun _ sender _ _ _ _ _ => hall sender⟩
  refine ⟨fun hstate => run.completed_at_proposer hall created hfiles hsurvives hr hstate, ?_⟩
  intro n p hp hstate
  by_cases hn : n = c.peer
  · subst hn
    rw [hp] at hr
    cases hr
    exact ⟨hstate, rfl⟩
  · exact run.completed_elsewhere hall created hsurvives hp hstate hn hr

/-- `p` and `a` have the same result of the task that `a` has run. -/
theorem same_result : ∃ h c spec r q, everyone.Run h ∧ .asked c .freshId "t" ∈ h ∧
    c.operation = .create spec ∧ spec.container.inputFiles = [] ∧
      everyone.record h c.peer "t" = some r ∧ r.state = .completed ∧
        everyone.record h "a" "t" = some q ∧ q.state = .completed ∧ r.result = q.result ∧
          ∃ newer a p v older, h = newer ++ .asked a (.execute p) (.ok v) :: older ∧ p.id = "t" ∧
            (∀ event ∈ newer ++ older, ¬ event.Runs "t") ∧ r.acceptedBy = some a.peer ∧
              r.result = some v := by
  have run := handedOver_valid.run
  obtain ⟨c, spec, ⟨hfresh, hcreate, -⟩, hpeer, hfiles⟩ := handedOver_created
  have hseen := handedOver_seen
  simp only [Bool.and_eq_true] at hseen
  obtain ⟨⟨⟨-, htextual⟩, hp⟩, ha⟩ := hseen
  obtain ⟨r, hr, hdone⟩ := record_of_keepsCompleted hp
  obtain ⟨q, hq, hqdone⟩ := record_of_keepsCompleted ha
  rw [← hpeer] at hr
  have hsurvives : ∀ a p v, .asked a (.execute p) (.ok v) ∈ handedOver.history → p.id = "t" →
      v.Survives := by
    intro a p v hmem _
    have hv := List.all_eq_true.1 htextual _ hmem
    cases v with
    | str text => exact Json.survives_str text
    | _ => cases hv
  obtain ⟨hrun, hcopies⟩ :=
    run.results_agree (fun _ => trivial) hfresh hcreate hfiles hsurvives hr
  have hsame := (hcopies "a" q hq hqdone).2
  exact ⟨_, c, spec, r, q, run, hfresh, hcreate, hfiles, hr, hdone, hq, hqdone, hsame, hrun hdone⟩

end Swarm

end TaskSwarm
