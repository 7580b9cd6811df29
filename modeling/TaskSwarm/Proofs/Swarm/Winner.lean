/-
At most one node takes a proposal on.

A proposal without files is never put back once it is settled, so its proposer
accepts once, however often its lock expires and is granted again
(`Run.accepted_once`). Whoever runs the task was told so by its proposer in one
request to be accepted, and each such request was served by one activity of the
proposer: hence there is one claim, one job, and one run of the task. The id is
taken for the proposer's own: no peer outside the swarm sends the proposer another
proposal under it. Anything else may come from outside.
-/
import TaskSwarm.Proofs.Swarm.Settled

set_option autoImplicit false

namespace TaskSwarm.Swarm

open TaskSwarm.Node

variable {w : Swarm} {h newer older : List Event} {a b c x y : Activity} {n : PeerId} {k : String}
  {p q r : Proposal} {spec : TaskSpec}

/-- A proposal that an activity has created, under an id that no peer from outside uses towards its
proposer. -/
structure Created (w : Swarm) (h : List Event) (c : Activity) (spec : TaskSpec) (k : String) :
    Prop where
  freshId : .asked c .freshId k ∈ h
  operation : c.operation = .create spec
  alone : ∀ x sender p, .began x ∈ h → x.peer = c.peer → x.operation = .handle sender (.proposal p) →
    p.id = k → w.isMember sender

/-! ## The record of the proposer -/

/-- Who inserts a proposal under an id that was made for another one is not its proposer's node. -/
theorem Run.creator_unique (run : w.Run h) (created : w.Created h c spec k) {kept : Bool}
    (hmem : .asked a (.store (.insert p)) kept ∈ h) {spec' : TaskSpec}
    (ho : a.operation = .create spec') (hid : p.id = k) : a = c := by
  have hfresh := (run.insert_of_create hmem ho).1
  rw [hid] at hfresh
  exact run.freshId_inj hfresh created.freshId

/-- A member tells of the proposal as its proposer made it. -/
theorem Run.told_by_member (run : w.Run h) (created : w.Created h c spec k) (hbegan : .began a ∈ h)
    {sender : PeerId} (ho : a.operation = .handle sender (.proposal p)) (hmember : w.isMember sender)
    (hid : p.id = k) : p.proposer = c.peer ∧ p.state = .proposed := by
  obtain ⟨b, before, hbefore, -, -, hsends⟩ := run.sent hbegan ho hmember
  cases hsends with
  | proposal hcreate hgot hsame hproposer hstate =>
    -- The sender has created what it sends, so it is the one who was given the id.
    have hkept := hbefore.subset (got_own_iff.1 hgot)
    have hb := run.creator_unique created hkept hcreate (hsame.symm.trans hid)
    obtain ⟨-, t, heq⟩ := run.insert_of_create hkept hcreate
    rw [heq] at hproposer hstate
    exact ⟨hproposer.trans (congrArg Activity.peer hb), hstate rfl⟩

/-- What the proposer keeps under the id is its own proposal. -/
theorem Run.own_of_created (run : w.Run h) (created : w.Created h c spec k) (hsuffix : older <:+ h)
    (hr : w.record older c.peer k = some r) :
    r.proposer = c.peer ∧ r.container = spec.container := by
  obtain ⟨a, p, kept, hmem, hpeer, hid, hkin⟩ := inserted_of_record hr
  have hmem : .asked a (.store (.insert p)) kept ∈ h := hsuffix.subset hmem
  have hown : p.proposer = a.peer := by
    obtain ⟨newer, older, rfl⟩ := List.append_of_mem hmem
    cases run.of_append.permits with
    | create ho => exact w.named a.peer
    | @receive sender p ho hforeign =>
      -- It was told by a member, so it names the proposer, who does not note its own proposals.
      have hbegan := run.began_of_mem hmem
      have hmember := created.alone a sender p hbegan hpeer ho hid
      obtain ⟨hproposer, -⟩ := run.told_by_member created hbegan ho hmember hid
      rw [w.named] at hforeign
      exact absurd (hproposer.trans hpeer.symm) hforeign
  obtain ⟨spec', ho⟩ := run.create_of_insert hmem hown
  have hac := run.creator_unique created hmem ho hid
  subst hac
  obtain ⟨-, t, heq⟩ := run.insert_of_create hmem ho
  have hspec : spec' = spec := by
    have hsame := ho.symm.trans created.operation
    cases hsame
    rfl
  rw [hkin.proposer, hkin.container, heq, hspec]
  exact ⟨rfl, rfl⟩

/-- A proposal without files is never put back. -/
theorem Run.not_withdraws (run : w.Run h) (created : w.Created h c spec k)
    (hfiles : spec.container.inputFiles = []) {event : Event} (hmem : event ∈ h) :
    ¬ event.Withdraws c.peer k := by
  rintro ⟨b, sender, y, q, rfl, hpeer, ho, -⟩
  obtain ⟨newer, older, rfl⟩ := List.append_of_mem hmem
  have hmoves := run.of_append.permits
  rw [ho] at hmoves
  obtain ⟨p, hlooked, hid, -, -, ⟨hcase, -⟩ | ⟨-, -, hne⟩⟩ := moves_of_acceptance hmoves
  · cases hcase
  · -- What was looked up had files, but the proposal was created without any.
    have hkey := run.of_append.tail.id_of_looked hlooked
    rw [← hkey, hid] at hlooked
    obtain ⟨before, hlook, hp⟩ := run.of_append.tail.record_of_looked hlooked
    rw [hpeer] at hp
    have hcontainer := (run.own_of_created created (hlook.trans suffix_append_cons) hp).2
    rw [hcontainer] at hne
    exact hne hfiles

/-- The record of the proposer, once settled, keeps its executor. -/
theorem Run.settled_of_created (run : w.Run h) (created : w.Created h c spec k)
    (hfiles : spec.container.inputFiles = []) (hsuffix : newer ++ older <:+ h)
    (hp : w.record older c.peer k = some p) (hsettled : p.IsSettled)
    (hr : w.record (newer ++ older) c.peer k = some r) :
    r.IsSettled ∧ r.acceptedBy = p.acceptedBy := by
  have hpown := (run.own_of_created created ((List.suffix_append _ _).trans hsuffix) hp).1
  have hrown := (run.own_of_created created hsuffix hr).1
  refine (run.of_suffix hsuffix).settled_since hp hpown hsettled ?_ hr hrown
  intro event hmem
  exact run.not_withdraws created hfiles (hsuffix.subset (List.mem_append_left _ hmem))

/-! ## One acceptance -/

/-- A request to be accepted for a proposal that a node answered with success. -/
def Accepts (h : List Event) (n : PeerId) (k : String) (x : Activity) : Prop :=
  x.peer = n ∧ ∃ sender y v, x.operation = .handle sender (.acceptance y) ∧ y.proposalId = k ∧
    .ended x (.ok v) ∈ h

/-- A request that was answered with success has moved the proposal to ACCEPTED. -/
theorem Run.landing_of_accepts (run : w.Run h) (hx : Accepts h n k x) :
    ∃ sender y q, x.operation = .handle sender (.acceptance y) ∧ y.proposalId = k ∧
      .asked x (.store (.transition k .accepted (.ofExecutor y.acceptedBy))) (.ok q) ∈ h := by
  obtain ⟨-, sender, y, v, ho, hid, hended⟩ := hx
  obtain ⟨newer, older, rfl⟩ := List.append_of_mem hended
  have hends := run.of_append.ends
  rw [ho] at hends
  obtain ⟨p, q, hlooked, -, hmoved⟩ := hends v rfl
  have hkey : p.id = k := (run.of_append.tail.id_of_looked hlooked).trans hid
  rw [hkey] at hmoved
  refine ⟨sender, y, q, ho, hid, ?_⟩
  exact List.mem_append_right _ (List.mem_cons_of_mem _ (got_own_iff.1 hmoved))

/-- The proposer of a proposal without files does not accept a second time. -/
theorem Run.accepted_once {sender : PeerId} {y : Acceptance} {patch patch' : Patch}
    (run : w.Run h) (created : w.Created h c spec k) (hfiles : spec.container.inputFiles = [])
    (hsuffix : .asked b (.store (.transition k .accepted patch')) (.ok r) ::
      (newer ++ .asked a (.store (.transition k .accepted patch)) (.ok q) :: older) <:+ h)
    (ho : a.operation = .handle sender (.acceptance y)) (ha : a.peer = c.peer)
    (hb : b.peer = c.peer) : False := by
  have hrun := run.of_suffix hsuffix
  obtain ⟨hq, hsettled, -⟩ := hrun.tail.of_append.landed ho
  obtain ⟨p, hp, hmoved, -⟩ := hrun.record_of_transition
  rw [ha] at hq
  rw [hb] at hp
  have hbefore := (List.suffix_cons _ _).trans hsuffix
  obtain ⟨hpsettled, -⟩ := run.settled_of_created created hfiles hbefore hq hsettled hp
  exact (settled_of_canBecome hpsettled (Store.canBecome_of_moved hmoved)).2 rfl

/-- At most one request to be accepted is answered with success. -/
theorem Run.accepts_unique (run : w.Run h) (created : w.Created h c spec k)
    (hfiles : spec.container.inputFiles = []) (hx : Accepts h c.peer k x)
    (hy : Accepts h c.peer k y) : x = y := by
  obtain ⟨sender, p, q, ho, -, hmem⟩ := run.landing_of_accepts hx
  obtain ⟨sender', p', q', ho', -, hmem'⟩ := run.landing_of_accepts hy
  -- Both have landed. If not at once, the later one finds the proposal settled by the earlier one.
  rcases exists_between hmem hmem' with heq | ⟨newer, between, older, heq⟩ |
    ⟨newer, between, older, heq⟩
  · exact congrArg Event.activity heq
  · exact (run.accepted_once created hfiles (heq ▸ List.suffix_append _ _) ho' hy.1 hx.1).elim
  · exact (run.accepted_once created hfiles (heq ▸ List.suffix_append _ _) ho hx.1 hy.1).elim

/-! ## Copies elsewhere -/

/-- A copy of the proposal at another node is never dropped. -/
theorem Run.copy_stays (run : w.Run h) (created : w.Created h c spec k) (hne : n ≠ c.peer)
    (hsuffix : newer ++ older <:+ h) (hp : w.record older n k = some p) :
    ∃ r, w.record (newer ++ older) n k = some r ∧ Proposal.Kin p r := by
  induction newer with
  | nil => exact ⟨p, hp, .refl p⟩
  | cons event newer ih =>
    obtain ⟨q, hq, hkin⟩ := ih ((List.suffix_cons _ _).trans hsuffix)
    rcases record_of_some event hq with hsame | ⟨a, cmd, answer, timeout, rfl, hpeer, hafter⟩
    · exact ⟨q, hsame, hkin⟩
    · rcases hafter with ⟨rfl, -⟩ | ⟨r, hchanges, hr⟩
      · -- Who removes a record has created it, and this one was created at the proposer.
        exfalso
        have hmem : .asked a (.store (.remove k)) answer ∈ h := hsuffix.subset List.mem_cons_self
        obtain ⟨p', kept, hkept, hid, hown⟩ := run.insert_of_remove hmem
        obtain ⟨spec', ho⟩ := run.create_of_insert hkept hown
        have hac := run.creator_unique created hkept ho hid
        exact hne (hpeer.symm.trans (congrArg Activity.peer hac))
      · exact ⟨r, hr, hkin.trans hchanges.kin⟩

/-- Two looks at the copy of another node see the same proposal. -/
theorem Run.copies_kin (run : w.Run h) (created : w.Created h c spec k) (hne : n ≠ c.peer)
    {first second : List Event} (hfirst : first <:+ h) (hsecond : second <:+ h)
    (hp : w.record first n k = some p) (hq : w.record second n k = some q) :
    p.proposer = q.proposer := by
  rcases List.suffix_or_suffix_of_suffix hfirst hsecond with ⟨newer, rfl⟩ | ⟨newer, rfl⟩
  · obtain ⟨r, hr, hkin⟩ := run.copy_stays created hne hsecond hp
    rw [hq] at hr
    cases hr
    exact hkin.proposer.symm
  · obtain ⟨r, hr, hkin⟩ := run.copy_stays created hne hfirst hq
    rw [hp] at hr
    cases hr
    exact hkin.proposer

/-! ## One claim -/

/-- A claim that was told it is accepted was told so by one request that the proposer answered with
success. -/
theorem Run.accepts_of_claim (run : w.Run h) (hmember : w.isMember p.proposer)
    (haccepted : GotAcceptance (w.settings a.peer) (own a h) p) :
    ∃ x place call, Accepts h p.proposer p.id x ∧ x.origin = .request a.number place 0 call ∧
      ∃ sender y, x.operation = .handle sender (.acceptance y) ∧ y.acceptedBy = a.peer := by
  obtain ⟨x, u, call, sender, y, place, hended, horigin, hpeer, ho, hid, hby⟩ :=
    run.accepted haccepted hmember
  exact ⟨x, place, call, ⟨hpeer, sender, y, u, ho, hid, hended⟩, horigin, sender, y, ho, hby⟩

/-- A claim of the proposal is made elsewhere, on a copy that names its proposer. -/
theorem Run.claim_elsewhere (run : w.Run h) (created : w.Created h c spec k)
    {first second : List Event} (hsecond : second <:+ h) (hfirst : first <:+ second)
    (hclaiming : Claiming (w.settings b.peer) b.operation (own b first) p) (hid : p.id = k)
    (hq : w.record second b.peer k = some q) (hproposer : q.proposer = c.peer) :
    b.peer ≠ c.peer ∧ p.proposer = c.peer := by
  have hne : b.peer ≠ c.peer := by
    -- At the proposer, the record would be one of its own.
    intro heq
    rw [← hid] at hq
    have hnot := (run.of_suffix hsecond).claim_not_own (hclaiming.mono (own_subset hfirst)) hq
    exact hnot (hproposer.trans heq.symm)
  refine ⟨hne, ?_⟩
  -- The copy that was claimed and the copy that is there later are of the same proposal.
  obtain ⟨⟨id, -, hlooked⟩, -⟩ := hclaiming
  have hrun := run.of_suffix (hfirst.trans hsecond)
  have hkey := hrun.id_of_looked hlooked
  rw [← hkey, hid] at hlooked
  obtain ⟨before, hlook, hp⟩ := hrun.record_of_looked hlooked
  have hbefore := (hlook.trans hfirst).trans hsecond
  exact (run.copies_kin created hne hbefore hsecond hp hq).trans hproposer

theorem Run.isMember_of_created (run : w.Run h) (created : w.Created h c spec k) :
    w.isMember c.peer :=
  run.isMember (run.began_of_mem created.freshId)

theorem Accepts.mono (hx : Accepts older n k x) (hsub : older ⊆ h) : Accepts h n k x := by
  obtain ⟨hpeer, sender, y, v, ho, hid, hended⟩ := hx
  exact ⟨hpeer, sender, y, v, ho, hid, hsub hended⟩

/-- Who runs the task goes back to a claim that set it going once, and to the request in which the
proposer accepted it. -/
theorem Run.claim_of_execute (run : w.Run h) (created : w.Created h c spec k) {result : Outcome Json}
    (hexecute : .asked a (.execute q) result :: older <:+ h) (hid : q.id = k)
    (hproposer : q.proposer = c.peer) :
    ∃ b p before, .asked b (.spawn (.run p)) () :: before <:+ h ∧ b.peer = a.peer ∧
      a.origin = .spawned b.number (place b before) ∧
      (∀ entry ∈ own b before, ∀ job, entry.effect ≠ .spawn job) ∧
      ∃ x place call, Accepts h c.peer k x ∧ x.origin = .request b.number place 0 call ∧
        ∃ sender y, x.operation = .handle sender (.acceptance y) ∧ y.acceptedBy = a.peer := by
  have hrun := run.of_suffix hexecute
  -- From the run of the task to the move to RUNNING,
  obtain ⟨p, ho, hmoved, -⟩ := hrun.permits
  have hpid : p.id = k := (hrun.tail.id_of_moved hmoved).symm.trans hid
  rw [hpid] at hmoved
  obtain ⟨before, hbefore, hq⟩ := hrun.tail.record_of_moved hmoved
  have hmove := (hbefore.trans (List.suffix_cons _ _)).trans hexecute
  -- from there to the claim that set the job going,
  have hbegan : .began a ∈ .asked a (.store (.transition k .running .none)) (.ok q) :: before :=
    began_mem_asked.2 (run.of_suffix hmove).began_of_asked
  obtain ⟨b, first, hspawn, hpeer, horigin⟩ := (run.of_suffix hmove).began_job hbegan ho
  have hfirst := run.of_suffix (hspawn.trans hmove)
  cases hfirst.permits with
  | @run p' q' hclaiming haccepted htaken honce =>
    have hp'id : p'.id = k := (hfirst.tail.id_of_moved htaken).symm.trans hpid
    rw [← hpeer] at hq
    obtain ⟨-, hp'⟩ := run.claim_elsewhere created hmove ((List.suffix_cons _ _).trans hspawn)
      hclaiming hp'id hq hproposer
    -- and from the claim to the request that its proposer answered with success.
    have hmember : w.isMember p'.proposer := hp' ▸ run.isMember_of_created created
    obtain ⟨x, place, call, haccepts, hserved, sender, y, hx, hy⟩ :=
      hfirst.tail.accepts_of_claim hmember haccepted
    rw [hp', hp'id] at haccepts
    have hsub : first ⊆ h := ((List.suffix_cons _ _).trans (hspawn.trans hmove)).subset
    exact ⟨b, p, first, hspawn.trans hmove, hpeer, horigin, honce, x, place, call,
      haccepts.mono hsub, hserved, sender, y, hx, hpeer ▸ hy⟩

/-- An activity that sets one job going does so at one point. -/
theorem eq_of_spawn_once {j j' : Job} {first second : List Event}
    (hfirst : .asked a (.spawn j) () :: first <:+ h)
    (hsecond : .asked a (.spawn j') () :: second <:+ h)
    (honce : ∀ entry ∈ own a first, ∀ job, entry.effect ≠ .spawn job)
    (honce' : ∀ entry ∈ own a second, ∀ job, entry.effect ≠ .spawn job) : first = second := by
  rcases eq_or_mem_of_suffix hfirst hsecond with heq | hmem | hmem
  · exact heq
  · exact (honce' _ (got_own_iff.2 hmem) j rfl).elim
  · exact (honce _ (got_own_iff.2 hmem) j' rfl).elim

/-- The task is run at most once. -/
theorem Run.execute_once (run : w.Run h) (created : w.Created h c spec k)
    (hfiles : spec.container.inputFiles = []) {result result' : Outcome Json}
    (hexecute : .asked a (.execute p) result :: older <:+ h) (hid : p.id = k)
    (hproposer : p.proposer = c.peer) (hmem : .asked b (.execute q) result' ∈ older)
    (hid' : q.id = k) (hproposer' : q.proposer = c.peer) : False := by
  obtain ⟨newer, last, rfl⟩ := List.append_of_mem hmem
  have hexecute' : .asked b (.execute q) result' :: last <:+ h :=
    ((List.suffix_append _ _).trans (List.suffix_cons _ _)).trans hexecute
  obtain ⟨d, j, before, hspawn, -, horigin, honce, x, place, call, hx, hserved, -⟩ :=
    run.claim_of_execute created hexecute hid hproposer
  obtain ⟨d', j', before', hspawn', -, horigin', honce', x', place', call', hx', hserved', -⟩ :=
    run.claim_of_execute created hexecute' hid' hproposer'
  -- Both claims were accepted in the same request, so they are one.
  obtain rfl := run.accepts_unique created hfiles hx hx'
  have hnumber : d.number = d'.number := by
    rw [hserved] at hserved'
    injection hserved'
  have hd : .began d ∈ h := run.began_of_mem (hspawn.subset List.mem_cons_self)
  have hd' : .began d' ∈ h := run.began_of_mem (hspawn'.subset List.mem_cons_self)
  obtain rfl := run.number_inj hd hd' hnumber
  -- One claim sets one job going, and the job runs the task once.
  obtain rfl := eq_of_spawn_once hspawn hspawn' honce honce'
  have ha : .began a ∈ h := run.began_of_mem (hexecute.subset List.mem_cons_self)
  have hb : .began b ∈ h := run.began_of_mem (hexecute'.subset List.mem_cons_self)
  have hab : a = b := by
    refine run.origin_inj ha hb (horigin.trans horigin'.symm) ?_
    rw [horigin]
    exact nofun
  subst hab
  obtain ⟨-, -, -, hfirst⟩ := (run.of_suffix hexecute).permits
  exact hfirst _ (got_own_iff.2 (List.mem_append_right _ List.mem_cons_self)) q rfl

/-- The record names the executor that was accepted. -/
theorem Run.executor_of_accepts (run : w.Run h) (created : w.Created h c spec k)
    (hfiles : spec.container.inputFiles = []) (hx : Accepts h c.peer k x) {sender : PeerId}
    {y : Acceptance} (ho : x.operation = .handle sender (.acceptance y))
    (hr : w.record h c.peer k = some r) : r.acceptedBy = some y.acceptedBy := by
  -- The record was left with that executor when the acceptance landed, and is settled since.
  obtain ⟨sender', y', q, ho', -, hlanding⟩ := run.landing_of_accepts hx
  have hsame : y' = y := by
    rw [ho] at ho'
    cases ho'
    rfl
  subst hsame
  obtain ⟨after, before, rfl⟩ := List.append_of_mem hlanding
  obtain ⟨hland, hsettled, hexecutor⟩ := run.of_append.landed ho'
  rw [hx.1] at hland
  obtain ⟨-, hkept⟩ := run.settled_of_created created hfiles List.suffix_rfl hland hsettled hr
  exact hkept.trans hexecutor

/-- The executor that the proposer names is the claimant that took the task on. -/
theorem Run.acceptedBy_of_claim (run : w.Run h) (created : w.Created h c spec k)
    (hfiles : spec.container.inputFiles = []) {patch : Patch}
    (hmem : .asked a (.store (.transition k .accepted patch)) (.ok q) ∈ h)
    (hclaim : a.operation.claimed? ≠ none) (hproposer : q.proposer = c.peer)
    (hr : w.record h c.peer k = some r) : r.acceptedBy = some a.peer := by
  obtain ⟨newer, older, heq⟩ := List.append_of_mem hmem
  have hsuffix : .asked a (.store (.transition k .accepted patch)) (.ok q) :: older <:+ h :=
    heq ▸ List.suffix_append _ _
  have hrun := run.of_suffix hsuffix
  obtain ⟨p, hid, hclaiming, haccepted⟩ := moves_of_claimed hrun.permits hclaim rfl
  obtain ⟨-, -, -, hq⟩ := hrun.record_of_transition
  obtain ⟨-, hp⟩ := run.claim_elsewhere created hsuffix (List.suffix_cons _ _) hclaiming hid hq
    hproposer
  have hmember : w.isMember p.proposer := hp ▸ run.isMember_of_created created
  obtain ⟨x, place, call, haccepts, -, sender, y, ho, hy⟩ :=
    hrun.tail.accepts_of_claim hmember haccepted
  rw [hp, hid] at haccepts
  have hsub := ((List.suffix_cons _ _).trans hsuffix).subset
  rw [run.executor_of_accepts created hfiles (haccepts.mono hsub) ho hr, hy]

/-- **At most one winner.** Of a proposal without files that a node has created, the node answers at
most one request to be accepted with success; the task is run at most once; and whoever took it on
by a claim of its own is the executor that the proposer's record names, for as long as there is one. -/
theorem Run.at_most_one_winner (run : w.Run h) (created : w.Created h c spec k)
    (hfiles : spec.container.inputFiles = []) :
    (∀ x y, Accepts h c.peer k x → Accepts h c.peer k y → x = y) ∧
    (∀ newer older a p result, h = newer ++ .asked a (.execute p) result :: older → p.id = k →
      p.proposer = c.peer → ∀ b q result', .asked b (.execute q) result' ∈ older → q.id = k →
        q.proposer ≠ c.peer) ∧
    (∀ a patch q, .asked a (.store (.transition k .accepted patch)) (.ok q) ∈ h →
      a.operation.claimed? ≠ none → q.proposer = c.peer → ∀ r, w.record h c.peer k = some r →
        r.acceptedBy = some a.peer) := by
  refine ⟨fun x y hx hy => run.accepts_unique created hfiles hx hy, ?_, ?_⟩
  · intro newer older a p result heq hid hproposer b q result' hmem hid' hproposer'
    have hsuffix : .asked a (.execute p) result :: older <:+ h := heq ▸ List.suffix_append _ _
    exact run.execute_once created hfiles hsuffix hid hproposer hmem hid' hproposer'
  · intro a patch q hmem hclaim hproposer r hr
    exact run.acceptedBy_of_claim created hfiles hmem hclaim hproposer hr

/-! ## A task that is handed over -/

/-- The swarm of everybody. -/
def everyone : Swarm := { among [] with isMember := fun _ => True }

instance : DecidablePred everyone.isMember := fun _ => inferInstanceAs (Decidable True)

/-- Surroundings in which there is `a` to talk to, and tasks print their word. -/
def helpful : (e : Effect) → Option e.Answer
  | .knownPeers => some ["a"]
  | .freshToken => some "L"
  | .execute _ => some (.ok (.str "done"))
  | e => calm "t" e

/-- An activity goes on for a while. -/
def goOn (number times : Nat) : List Turn := List.replicate times (.go number helpful)

/-- `p` has a task. -/
def creator : Activity := ⟨0, "p", .outside, .create (echo [])⟩

/-- The task of `p`, as `p` tells about it. -/
def told : Proposal := .new "t" "p" (echo []) 0

/-- `p` is about to hear whether `a` takes note of its task. -/
def telling : Scene := Scene.after everyone ⟨[], []⟩ (.user "p" creator.operation :: goOn 0 5)

/-- How `p` tells `a`. -/
def telling.call : Call :=
  requestCall (everyone.settings "p") "a" .proposal Proposal.codec told 0

/-- `a` takes note of the task. -/
def hearing : Scene := telling.serve everyone creator 0 telling.call (.proposal told)

/-- `a` claims the task, runs it and reports its result. That the task is running gets lost on the
way. -/
def handingOver : List Turn :=
  goOn 6 5 ++ .job 0 :: goOn 12 5 ++
    .hear 12 0 (.new .lock LockRequest.codec ⟨"t", "L", "a"⟩ 0) :: goOn 18 2 ++ .finish 18 ::
      goOn 12 5 ++
    .hear 12 0 (.new .acceptance Acceptance.codec ⟨"t", "a", 0⟩ 0) :: goOn 27 4 ++ .finish 27 ::
      goOn 12 3 ++
    .job 0 :: goOn 36 9 ++
    .hear 36 0 (.new .result TaskResult.codec ⟨"t", .str "done", 0⟩ 0) :: goOn 46 3 ++ .finish 46 ::
      goOn 36 2

def handedOver : Scene := hearing.after everyone handingOver

theorem hearing_valid : hearing.Valid everyone := by
  obtain ⟨e, next, hfind, hcall⟩ : ∃ e next, telling.cast.find? (·.1.number = 0) =
      some (creator, .ask e next) ∧ e.calls[0]? = some telling.call := ⟨_, _, rfl, rfl⟩
  have hheard : Inbound.ofBytes .proposal telling.call.bytes = .ok (.proposal told) :=
    Inbound.ofBytes_writeMessage (by decide +kernel) (by decide +kernel)
  have hfirst : telling.history.any
      (isServiceOf creator.number (place creator telling.history) 0) = false := by
    decide +kernel
  have hvalid : telling.Valid everyone := Scene.valid_blank.after _
  exact hvalid.serve hfind hcall trivial rfl hheard hfirst

theorem handedOver_valid : handedOver.Valid everyone := hearing_valid.after handingOver

/-- The creation of the task. -/
def isCreation : Event → Bool
  | .asked ⟨_, n, _, .create spec⟩ .freshId id =>
    n = "p" && id = "t" && spec.container.inputFiles.isEmpty
  | _ => false

/-- A request to be accepted that was answered with success. -/
def isAcceptance : Event → Bool
  | .ended ⟨_, n, _, .handle _ (.acceptance x)⟩ (.ok _) => n = "p" && x.proposalId = "t"
  | _ => false

/-- Whether the result of a task, if an event says what it is, is a text. -/
def isTextual : Event → Bool
  | .asked _ (.execute _) (.ok (.str _)) => true
  | .asked _ (.execute _) (.ok _) => false
  | _ => true

/-- Whether a node keeps the task, and it is COMPLETED. -/
def keepsCompleted (h : List Event) (n : PeerId) : Bool :=
  (everyone.record h n "t").any (·.state = .completed)

theorem record_of_keepsCompleted {h : List Event} {n : PeerId} (hkeeps : keepsCompleted h n = true) :
    ∃ r, everyone.record h n "t" = some r ∧ r.state = .completed := by
  obtain ⟨r, hr, hstate⟩ := (Option.any_eq_true _ _).1 hkeeps
  exact ⟨r, hr, of_decide_eq_true hstate⟩

/-- In this run `p` accepts, and both nodes have the result at the end. -/
theorem handedOver_seen :
    handedOver.history.any isCreation && handedOver.history.any isAcceptance &&
      handedOver.history.all isTextual && keepsCompleted handedOver.history "p" &&
        keepsCompleted handedOver.history "a" := by
  decide +kernel

theorem handedOver_created : ∃ c spec, everyone.Created handedOver.history c spec "t" ∧
    c.peer = "p" ∧ spec.container.inputFiles = [] := by
  have hseen := handedOver_seen
  simp only [Bool.and_eq_true] at hseen
  obtain ⟨event, hmem, hevent⟩ := List.any_eq_true.1 hseen.1.1.1.1
  unfold isCreation at hevent
  split at hevent
  · next number n origin spec id =>
    simp only [Bool.and_eq_true, decide_eq_true_eq, List.isEmpty_iff] at hevent
    obtain ⟨⟨rfl, rfl⟩, hfiles⟩ := hevent
    exact ⟨_, spec, ⟨hmem, rfl, fun _ _ _ _ _ _ _ => trivial⟩, rfl, hfiles⟩
  · cases hevent

/-- `p` accepts `a`, and nobody else. -/
theorem one_winner : ∃ h c spec x, everyone.Run h ∧ everyone.Created h c spec "t" ∧
    spec.container.inputFiles = [] ∧ Accepts h c.peer "t" x ∧ ∀ y, Accepts h c.peer "t" y → x = y := by
  have run := handedOver_valid.run
  obtain ⟨c, spec, created, hpeer, hfiles⟩ := handedOver_created
  have hseen := handedOver_seen
  simp only [Bool.and_eq_true] at hseen
  obtain ⟨event, hmem, hevent⟩ := List.any_eq_true.1 hseen.1.1.1.2
  unfold isAcceptance at hevent
  split at hevent
  · next number n origin sender x v =>
    simp only [Bool.and_eq_true, decide_eq_true_eq] at hevent
    obtain ⟨rfl, hid⟩ := hevent
    have hx : Accepts handedOver.history c.peer "t"
        ⟨number, "p", origin, .handle sender (.acceptance x)⟩ :=
      ⟨hpeer.symm, sender, x, v, rfl, hid, hmem⟩
    have hone := (run.at_most_one_winner created hfiles).1
    exact ⟨_, c, spec, _, run, created, hfiles, hx, fun y hy => hone _ y hx hy⟩
  · cases hevent

end TaskSwarm.Swarm
