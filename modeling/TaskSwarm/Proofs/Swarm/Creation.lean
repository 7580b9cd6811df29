/-
Creating a proposal, over a run.

A new proposal is in the store before anybody hears of it, so whatever its peers and its
user make of it may come before it is known whether a peer has acknowledged it. Still the
call is all or nothing. If none has, the proposal is removed with its slot, and what is
under the id from then on is what somebody outside the swarm has sent, or the slot of an
attempt that had found the proposal before (`Withdrawn`). If one has, the proposal stays,
because nobody else removes what this call has kept, and that it was created is told once
(`Announced`). Nothing but what is under the new id is ever touched.
-/
import TaskSwarm.Proofs.Node.Creation
import TaskSwarm.Proofs.Node.Saying
import TaskSwarm.Proofs.Swarm.Delivery
import TaskSwarm.Proofs.Swarm.Slots
import TaskSwarm.Proofs.Swarm.Winner

set_option autoImplicit false

namespace TaskSwarm.Swarm

open TaskSwarm.Node

variable {w : Swarm} {h newer older since : List Event} {a b : Activity} {n : PeerId}
  {k : String} {p q r : Proposal} {e : Effect} {answer : e.Answer} {o : Outcome Json} {spec : TaskSpec}

/-! ## What came since -/

/-- Where nothing was kept, what is kept now was taken in since. -/
theorem Run.taken_in_since (run : w.Run (newer ++ older)) (hnone : w.record older n k = none)
    (hr : w.record (newer ++ older) n k = some r) :
    ∃ b p, .asked b (.store (.insert p)) true ∈ newer ∧ b.peer = n ∧ p.id = k := by
  induction newer generalizing r with
  | nil => cases hnone.symm.trans hr
  | cons event newer ih =>
    cases hbefore : w.record (newer ++ older) n k with
    | none =>
      obtain ⟨hid, b, rfl, hpeer⟩ := run.taken_in hbefore hr
      exact ⟨b, r, List.mem_cons_self, hpeer, hid⟩
    | some q =>
      obtain ⟨b, p, hmem, hb⟩ := ih run.tail hbefore
      exact ⟨b, p, List.mem_cons_of_mem _ hmem, hb⟩

/-- A slot that was free and is not free now was taken since. -/
theorem Run.reserved_since (run : w.Run (newer ++ older)) (hfree : (w.store older n).isActive k = false)
    (hactive : (w.store (newer ++ older) n).isActive k = true) :
    ∃ b r, .asked b (.store (.reserve k r)) true ∈ newer ∧ b.peer = n := by
  induction newer with
  | nil => cases hfree.symm.trans hactive
  | cons event newer ih =>
    obtain ⟨b, c, answer, rfl, hpeer, htakes⟩ | ⟨hbefore, -⟩ := run.isActive_cons_iff.1 hactive
    · obtain ⟨r, heq⟩ := Command.eq_of_takes? htakes
      cases heq
      exact ⟨b, r, List.mem_cons_self, hpeer⟩
    · obtain ⟨b, r, hmem, hpeer⟩ := ih run.tail hbefore
      exact ⟨b, r, List.mem_cons_of_mem _ hmem, hpeer⟩

/-- Somebody outside the swarm has sent a node a proposal under an id, and the node has kept it. -/
def StrangerKept (w : Swarm) (since : List Event) (n : PeerId) (k : String) : Prop :=
  ∃ b sender p, ¬ w.isMember sender ∧ b.peer = n ∧ b.operation = .handle sender (.proposal p) ∧
    p.id = k ∧ .asked b (.store (.insert p)) true ∈ since

/-- A node's user had it try to take a task on, and that has taken the slot. -/
def UserTook (since : List Event) (n : PeerId) (k : String) : Prop :=
  ∃ b r, b.peer = n ∧ b.operation = .attempt k ∧ .asked b (.store (.reserve k r)) true ∈ since

/-- What is in somebody else's name under an id that was given to a node, somebody outside the swarm has
sent: no member speaks of another's proposal. -/
theorem Run.stranger_of_foreign (run : w.Run h) (hdrawn : .asked a .freshId k ∈ h)
    (hmem : .asked b (.store (.insert p)) true ∈ h) (hid : p.id = k) (hforeign : p.proposer ≠ a.peer)
    (hpeer : b.peer = a.peer) :
    ∃ sender, ¬ w.isMember sender ∧ b.operation = .handle sender (.proposal p) := by
  obtain ⟨sender, ho⟩ := run.handle_of_insert hmem (hpeer ▸ hforeign)
  refine ⟨sender, fun hmember => ?_, ho⟩
  obtain ⟨c, before, hbefore, -, hc, hsends⟩ := run.sent (run.began_of_mem hmem) ho hmember
  cases hsends with
  | proposal ho' hgot hid' hproposer =>
    have hinsert := hbefore.subset (got_own_iff.1 hgot)
    obtain ⟨hfresh, t, hp⟩ := run.insert_of_create hinsert ho'
    rw [← hid', hid] at hfresh
    obtain rfl := run.freshId_inj hfresh hdrawn
    refine hforeign (hproposer.trans ?_)
    rw [hp]
    rfl

/-! ## One create -/

theorem Run.createAsks (run : w.Run (.asked a e answer :: older)) (ho : a.operation = .create spec) :
    CreateAsks (w.settings a.peer) spec (own a older) e := run.asksAs (obeys_creator ho)

/-- Whoever tells that a proposal was created was given its id, and has told nothing before. -/
theorem Run.drawn_of_told (run : w.Run (.asked a (.emit (.proposalCreated k p)) () :: older)) :
    .asked a .freshId k ∈ older ∧ ∀ event, .asked a (.emit event) () ∉ older := by
  have htells := run.asksAs (says_program _ _) _ rfl
  generalize ho : a.operation = o at htells
  cases htells
  obtain ⟨b, hevent, hpast⟩ := (run.createAsks ho).of_emit
  obtain ⟨-, rfl⟩ := NodeEvent.proposalCreated.inj hevent
  simp only [← got_own_iff, hpast]
  exact ⟨by simp [Got, Broadcast.told, Broadcast.proposal, Proposal.new], by simp [Got, Broadcast.told]⟩

/-- A create touches nothing but what is under the id that it was given. -/
theorem Run.others_of_create (run : w.Run (.asked a e answer :: older)) (ho : a.operation = .create spec)
    (hone : ∀ id, .asked a .freshId id ∈ older → id = k) {j : String} (hother : n ≠ a.peer ∨ j ≠ k) :
    w.record (.asked a e answer :: older) n j = w.record older n j ∧
      (w.store (.asked a e answer :: older) n).isActive j = (w.store older n).isActive j := by
  simp only [record]
  obtain ⟨hsame, -⟩ | ⟨_, c, reply, hevent, rfl, hstep⟩ := store_cases (w := w) (.asked a e answer) older n
  · rw [hsame]
    exact ⟨rfl, rfl⟩
  cases hevent
  have hj : j ≠ k := hother.resolve_left fun hne => hne rfl
  rw [hstep]
  -- It asks its store to keep the proposal and to remove it again, and both are about its id.
  have hcommand : c.subject? ≠ some j ∧ c.takes? ((w.store older a.peer).step c).2.1 ≠ some j ∧
      c.frees? ≠ some j := by
    simp only [← got_own_iff] at hone
    obtain ⟨id, t, rfl, hpast⟩ | ⟨b, rfl, hpast⟩ := (run.createAsks ho).of_store
    · obtain rfl := hone id (by simp [hpast, Got])
      exact ⟨fun heq => hj (Option.some.inj heq).symm, by simp [Command.takes?], by simp [Command.frees?]⟩
    · obtain rfl := hone b.id (by simp [hpast, Got, Broadcast.told])
      exact ⟨fun heq => hj (Option.some.inj heq).symm, by simp [Command.takes?],
        fun heq => hj (Option.some.inj heq).symm⟩
  refine ⟨Store.step_of_subject_ne hcommand.1, ?_⟩
  rw [Bool.eq_iff_iff, Store.isActive_step_iff]
  simp [hcommand]

/-- What a create has come to by its end. -/
theorem Run.createEnds (run : w.Run h) (hended : .ended a o ∈ h) (ho : a.operation = .create spec) :
    CreateEnds (w.settings a.peer) spec (own a h) o := run.ended_as hended (obeys_creator ho)

/-! ## Nothing is left of what nobody has heard of -/

/-- Since a node has removed its own proposal, nothing is under the id but what somebody outside the swarm
has sent, and no slot is taken for it but for that, or by an attempt of the node's user. -/
structure Gone (w : Swarm) (h since : List Event) (n : PeerId) (k : String) : Prop where
  record : w.record h n k = none ∨ StrangerKept w since n k
  slot : (w.store h n).isActive k = false ∨ UserTook since n k ∨ StrangerKept w since n k

/-- What a node keeps under the id of its own proposal once that is removed, a stranger has sent. -/
theorem Run.stranger_since {found : Option Proposal}
    (run : w.Run (since ++ .asked a (.store (.remove k)) found :: older))
    (hmem : .asked b (.store (.insert p)) true ∈ since) (hpeer : b.peer = a.peer) (hid : p.id = k) :
    StrangerKept w since a.peer k := by
  have hdrawn : .asked a .freshId k ∈ since ++ .asked a (.store (.remove k)) found :: older :=
    run.freshId_of_remove (List.mem_append_right _ List.mem_cons_self)
  have hforeign : p.proposer ≠ a.peer := by
    intro hown
    obtain ⟨p₀, kept, hkept, hid₀, hown₀⟩ := run.of_append.insert_of_remove List.mem_cons_self
    obtain ⟨last, first, rfl⟩ := List.append_of_mem hmem
    rw [List.append_assoc, List.cons_append] at run
    exact run.of_append.insert_once (hown.trans hpeer.symm) (List.mem_append_right _ hkept) hown₀
      (hid₀.trans hid.symm)
  obtain ⟨sender, hstranger, ho⟩ :=
    run.stranger_of_foreign hdrawn (List.mem_append_left _ hmem) hid hforeign hpeer
  exact ⟨b, sender, p, hstranger, hpeer, ho, hid, hmem⟩

theorem Run.gone {found : Option Proposal}
    (run : w.Run (since ++ .asked a (.store (.remove k)) found :: older))
    (hfresh : w.DrawsFresh older a.peer) :
    Gone w (since ++ .asked a (.store (.remove k)) found :: older) since a.peer k := by
  have hremove := run.of_append
  constructor
  · have hnone : w.record (.asked a (.store (.remove k)) found :: older) a.peer k = none := by
      simp [record, store, Store.step, SortedMap.get?_erase]
    cases hr : w.record (since ++ .asked a (.store (.remove k)) found :: older) a.peer k with
    | none => exact Or.inl rfl
    | some r =>
      obtain ⟨b, p, hmem, hpeer, hid⟩ := run.taken_in_since hnone hr
      exact Or.inr (run.stranger_since hmem hpeer hid)
  · have hfree : (w.store (.asked a (.store (.remove k)) found :: older) a.peer).isActive k = false := by
      rw [Bool.eq_false_iff, Ne, hremove.isActive_cons_iff]
      rintro (⟨_, _, _, ⟨⟩, -, htakes⟩ | ⟨-, hfrees⟩)
      · cases htakes
      · exact hfrees _ _ _ rfl rfl rfl
    cases hactive : (w.store (since ++ .asked a (.store (.remove k)) found :: older) a.peer).isActive k with
    | false => exact Or.inl rfl
    | true =>
      refine Or.inr ?_
      -- A slot is taken by an attempt, which its user makes or a claim that the node has set going.
      obtain ⟨b, r, hmem, hpeer⟩ := run.reserved_since hfree hactive
      obtain ⟨first, hsuffix⟩ := exists_suffix_of_mem (List.mem_append_left _ hmem)
      have hclaimed := (run.of_suffix hsuffix).reserved.1
      unfold Operation.claimed? at hclaimed
      split at hclaimed
      · next id ho =>
        cases hclaimed
        exact Or.inl ⟨b, r, hpeer, ho, hmem⟩
      · next id delay ho =>
        cases hclaimed
        -- The node has set this claim going for a proposal that it was sent.
        obtain ⟨c, before, hspawn, hc, -⟩ :=
          run.began_job (run.began_of_mem (hsuffix.subset List.mem_cons_self)) ho
        have hc : c.peer = b.peer := hc
        obtain ⟨sender, p, hdelivery, hid, -, hkept, -⟩ := (run.of_suffix hspawn).kept_of_claim
        obtain hkept | hkept := List.mem_append.1 (hspawn.subset (List.mem_cons_of_mem _ hkept))
        · exact Or.inr (run.stranger_since hkept (hc.trans hpeer) hid)
        · -- What stood there before the removal was the node's own, and a delivery keeps nothing of the kind.
          replace hkept : .asked c (.store (.insert p)) true ∈ older := by simpa using hkept
          obtain ⟨earlier, hinsert⟩ := exists_suffix_of_mem hkept
          have hrun := hremove.tail.of_suffix hinsert
          have hp := hrun.record_of_insert
          rw [hc, hpeer, hid] at hp
          obtain ⟨-, -, hforeign⟩ := hrun.kept_by_delivery hdelivery
          exact absurd (hremove.own_of_remove hfresh hinsert hp) (hc.trans hpeer ▸ hforeign)
      · cases hclaimed

/-- A call that has failed to create a proposal for lack of an acknowledgement, and has left nothing. -/
structure Withdrawn (w : Swarm) (h : List Event) (a : Activity) (spec : TaskSpec) (k : String) : Prop where
  drawn : .asked a .freshId k ∈ h
  unheard : ∀ (calls : List Call) (answers : List (Except CallFault ByteArray)) (i : Nat) (c : Call)
    (r : Except CallFault ByteArray) (v : Json), .asked a (.callAll calls) answers ∈ h →
      calls[i]? = some c → answers[i]? = some r → readAnswer c.peer r ≠ .ok v
  /-- It has removed its own proposal, and that was gone, with its slot, ever since: right then, when
  nothing has come since, there is neither a record nor a slot. -/
  removed : ∃ since t r older, h = since ++ .asked a (.store (.remove k)) (some r) :: older ∧
    Proposal.Kin (.new k a.peer spec t) r ∧ ∀ later, later <:+ since →
      Gone w (later ++ .asked a (.store (.remove k)) (some r) :: older) later a.peer k
  /-- Nobody has told that it was created. -/
  untold : ∀ b p, .asked b (.emit (.proposalCreated k p)) () ∉ h
  /-- It has touched no other record and no other slot. -/
  others : ∀ e answer older n j, .asked a e answer :: older <:+ h → n ≠ a.peer ∨ j ≠ k →
    w.record (.asked a e answer :: older) n j = w.record older n j ∧
      (w.store (.asked a e answer :: older) n).isActive j = (w.store older n).isActive j

/-- A proposal that a call has created: somebody has acknowledged it, it is kept, and that was told once. -/
structure Announced (w : Swarm) (h : List Event) (a : Activity) (spec : TaskSpec) (k : String)
    (p : Proposal) : Prop where
  drawn : .asked a .freshId k ∈ h
  new : ∃ t, p = .new k a.peer spec t
  /-- A peer has acknowledged it, and a member has done so in an operation of its own. -/
  heard : ∃ (calls : List Call) (answers : List (Except CallFault ByteArray)) (i : Nat) (c : Call)
    (r : Except CallFault ByteArray) (v : Json), .asked a (.callAll calls) answers ∈ h ∧ calls[i]? = some c ∧
    answers[i]? = some r ∧ readAnswer c.peer r = .ok v ∧
      (w.isMember c.peer → ∃ x u q, .ended x (.ok u) ∈ h ∧ x.peer = c.peer ∧
        x.operation = .handle a.peer (.proposal q) ∧ q.id = k)
  kept : ∃ r, w.record h a.peer k = some r ∧ Proposal.Kin p r
  told : ∃ newer older, h = newer ++ .asked a (.emit (.proposalCreated k p)) () :: older ∧
    ∀ b q, .asked b (.emit (.proposalCreated k q)) () ∉ newer ++ older

section

variable {b : Broadcast}

/-- The proposal that a call tells its peers of is new, and in the name of its node. -/
theorem proposal_of_create (hspec : b.spec = spec) :
    b.proposal (w.settings a.peer) = .new b.id a.peer spec b.time := by
  rw [Broadcast.proposal, hspec, w.named]

/-- What a call has been told once all its peers have answered, it has asked for. -/
theorem asked_of_told (hsub : b.told (w.settings a.peer) ⊆ own a h) : .asked a .freshId b.id ∈ h ∧
    .asked a (.store (.insert (b.proposal (w.settings a.peer)))) b.kept ∈ h ∧
      .asked a (.callAll (b.calls (w.settings a.peer))) b.answers ∈ h := by
  simp only [← got_own_iff]
  exact ⟨hsub (by simp [Broadcast.told]), hsub (by simp [Broadcast.told]), hsub (by simp [Broadcast.told])⟩

/-- What a create has kept stays until the create itself removes it. -/
theorem Run.kept_until_removed {kept : Bool} (run : w.Run h) (hfresh : w.DrawsFresh h a.peer)
    (hinsert : .asked a (.store (.insert p)) kept ∈ h) (hown : p.proposer = a.peer)
    (hnone : NoneRemoved a.peer p.id h) :
    ∃ r, w.record h a.peer p.id = some r ∧ Proposal.Kin p r := by
  obtain ⟨first, hsuffix⟩ := exists_suffix_of_mem hinsert
  have hkept := (run.of_suffix hsuffix).kept_iff.2 (hfresh a p _ first hsuffix rfl hown)
  rw [hkept] at hsuffix
  have hp := (run.of_suffix hsuffix).record_of_insert
  obtain ⟨between, rfl⟩ := hsuffix
  exact record_kept hp (hnone.mono (List.subset_append_left _ _))

/-- Whoever tells that a proposal was created is the one that was given its id. -/
theorem Run.teller_of_created (run : w.Run h) {x : Activity}
    (htold : .asked x (.emit (.proposalCreated k p)) () ∈ h) (hdrawn : .asked a .freshId k ∈ h) : x = a := by
  obtain ⟨newer, older, rfl⟩ := List.append_of_mem htold
  have hfresh := run.of_append.drawn_of_told.1
  exact run.freshId_inj (List.mem_append_right _ (List.mem_cons_of_mem _ hfresh)) hdrawn

theorem Run.withdrawn (run : w.Run h) (hfresh : w.DrawsFresh h a.peer) (ho : a.operation = .create spec)
    {found : Option Proposal} (hspec : b.spec = spec) (hnot : ¬ b.IsHeard)
    (hown : own a h = ⟨.store (.remove b.id), found⟩ :: b.told (w.settings a.peer)) :
    Withdrawn w h a spec b.id := by
  obtain ⟨hdrawn, -⟩ := asked_of_told (hown ▸ List.subset_cons_self _ _)
  obtain ⟨since, older, rfl, -, hpast⟩ := exists_of_own_cons hown
  have hremove := run.of_append
  have holder : w.DrawsFresh older a.peer := hfresh.of_suffix suffix_append_cons
  obtain ⟨-, hinsert, -⟩ := asked_of_told fun x (hx : x ∈ b.told _) => hpast ▸ hx
  obtain ⟨r, hr, hkin⟩ := hremove.tail.kept_until_removed holder hinsert (w.named a.peer)
    fun x found' hmem _ => hremove.remove_once hmem
  obtain rfl : found = some r := hremove.possible.trans hr
  refine ⟨hdrawn, ?unheard, ⟨since, b.time, r, older, rfl, ?kin, ?gone⟩, ?untold, ?others⟩
  case unheard =>
    intro calls answers i c r v hcalls hc hr hv
    have hmem := got_own_iff.2 hcalls
    obtain ⟨rfl, rfl⟩ : calls = b.calls (w.settings a.peer) ∧ answers = b.answers := by
      simpa [hown, Got, Broadcast.told] using hmem
    exact hnot (Broadcast.isHeard_iff.2 ⟨i, c, r, v, hc, hr, hv⟩)
  case kin => exact proposal_of_create hspec ▸ hkin
  case gone =>
    rintro later ⟨last, rfl⟩
    rw [List.append_assoc] at run
    exact run.of_append.gone holder
  case untold =>
    intro x p htold
    obtain rfl := run.teller_of_created htold hdrawn
    have hmem := got_own_iff.2 htold
    simp [hown, Got, Broadcast.told] at hmem
  case others =>
    intro e answer before n j hsuffix hother
    refine (run.of_suffix hsuffix).others_of_create ho (fun id hmem => ?_) hother
    have hmem := got_own_iff.2 (hsuffix.subset (List.mem_cons_of_mem _ hmem))
    simpa [hown, Got, Broadcast.told] using hmem

theorem Run.announced (run : w.Run h) (hfresh : w.DrawsFresh h a.peer) (hspec : b.spec = spec)
    (hheard : b.IsHeard)
    (hown : own a h = ⟨.emit (.proposalCreated b.id (b.proposal (w.settings a.peer))), ()⟩ ::
      b.told (w.settings a.peer)) :
    Announced w h a spec b.id (b.proposal (w.settings a.peer)) := by
  obtain ⟨hdrawn, hinsert, hcalls⟩ := asked_of_told (hown ▸ List.subset_cons_self _ _)
  refine ⟨hdrawn, ⟨b.time, proposal_of_create hspec⟩, ?heard, ?kept, ?told⟩
  case heard =>
    obtain ⟨i, c, r, v, hc, hr, hv⟩ := Broadcast.isHeard_iff.1 hheard
    refine ⟨_, _, i, c, r, v, hcalls, hc, hr, hv, fun hmember => ?_⟩
    obtain ⟨x, u, place, hended, horigin⟩ := run.served_among hcalls hc hr hmember hv
    obtain ⟨hpeer, y, kind, m, hy, hnumber, hbytes, hx⟩ :=
      run.operation_of_request (run.began_of_mem hended) horigin
    -- The request that it has answered is of this call, and holds its proposal.
    obtain rfl := run.number_inj hy (run.began_of_mem hcalls) hnumber
    obtain ⟨peer, -, rfl⟩ := List.mem_map.1 (List.mem_of_getElem? hc)
    obtain ⟨q, rfl, hid, -⟩ := Inbound.of_proposal hbytes
    exact ⟨x, u, q, hended, hpeer, hx, hid⟩
  case kept =>
    refine run.kept_until_removed hfresh hinsert (w.named a.peer) fun x found hremove _ => ?_
    -- Only who was given the id removes what is under it, and this call has not.
    obtain rfl := run.freshId_inj (run.freshId_of_remove hremove) hdrawn
    have hmem := got_own_iff.2 hremove
    simp [hown, Got, Broadcast.told] at hmem
  case told =>
    obtain ⟨newer, older, rfl, hnone, hpast⟩ := exists_of_own_cons hown
    refine ⟨newer, older, rfl, fun x q htold => ?_⟩
    obtain rfl := run.teller_of_created (List.mem_append.2 ((List.mem_append.1 htold).imp_right
      (List.mem_cons_of_mem _))) hdrawn
    obtain hmem | hmem := (List.mem_append.1 htold).imp got_own_iff.2 got_own_iff.2
    · simp [hnone, Got] at hmem
    · simp [hpast, Got, Broadcast.told] at hmem

end

/-- What a call to create a proposal has come to, by what its user was told. -/
inductive AllOrNothing (w : Swarm) (h : List Event) (a : Activity) (spec : TaskSpec) : Outcome Json → Prop
  /-- It was refused before it had asked for anything. -/
  | refused {e : SwarmError} : spec.validate = .error e → (∀ e answer, .asked a e answer ∉ h) →
      AllOrNothing w h a spec (.error e)
  | withdrawn {k : String} : Withdrawn w h a spec k → AllOrNothing w h a spec (.error .broadcastFailed)
  | announced {k : String} {p : Proposal} : Announced w h a spec k p →
      AllOrNothing w h a spec (.ok (.str k))

/-- **Creating a proposal is all or nothing**, whatever its peers answer and whatever they ask of the
proposal meanwhile. -/
theorem Run.allOrNothing (run : w.Run h) (hfresh : w.DrawsFresh h a.peer)
    (ho : a.operation = .create spec) (hended : .ended a o ∈ h) : AllOrNothing w h a spec o := by
  have hends := run.createEnds hended ho
  generalize hown : own a h = past at hends
  cases hends with
  | refused hinvalid =>
    refine .refused hinvalid fun e answer hmem => ?_
    have hgot := got_own_iff.2 hmem
    simp [hown, Got] at hgot
  | withdrawn hspec hnot => exact .withdrawn (run.withdrawn hfresh ho hspec hnot hown)
  | announced hspec hheard => exact .announced (run.announced hfresh hspec hheard hown)

/-- `p` proposes a task while it knows nobody; `y` has got hold of its id, and locks it. -/
def unheard : List Turn :=
  .user "p" (.create (echo [])) :: List.replicate 3 (.go 0 (calm "s")) ++
    [.outsider "p" "y" (.lock ⟨"s", "L", "y"⟩), .go 4 alone, .go 4 alone, .finish 4] ++
      List.replicate 4 (.go 0 alone) ++ [.finish 0]

/-- `a` takes note of the task of `p`, and `p` hears of that. -/
def heard : Scene := hearing.after everyone (goOn 6 5 ++ .finish 6 :: goOn 0 2 ++ [.finish 0])

/-- Whether an event tells a user that a task was created. -/
def isCreated : Event → Bool
  | .ended ⟨_, n, _, .create _⟩ (.ok _) => n = "p"
  | _ => false

/-- Of these, `p` withdraws one task and announces the other. -/
theorem withdrawn_or_announced :
    (∃ x k, Withdrawn (among ["p"]) ((among ["p"]).played unheard) x (echo []) k) ∧
      ∃ x spec k p, Announced everyone heard.history x spec k p := by
  constructor
  · have run := run_played (w := among ["p"]) unheard
    obtain ⟨x, older, hplayed, ho, hpeer⟩ : ∃ x older, (among ["p"]).played unheard =
        .ended x (.error .broadcastFailed) :: older ∧ x.operation = .create (echo []) ∧ x.peer = "p" :=
      ⟨_, _, rfl, rfl, rfl⟩
    have hapart : (among ["p"]).OwnApart ((among ["p"]).played unheard) "p" := run.ownApart_of_all rfl
    have hended : .ended x (.error .broadcastFailed) ∈ (among ["p"]).played unheard := by simp [hplayed]
    cases run.allOrNothing (hpeer ▸ hapart.new) ho hended with
    | refused hinvalid => cases hinvalid
    | withdrawn hwithdrawn => exact ⟨x, _, hwithdrawn⟩
  · have run : everyone.Run heard.history := (hearing_valid.after _).run
    have hseen : heard.history.any isCreated && heard.history.all (isApart "p") := by decide +kernel
    rw [Bool.and_eq_true] at hseen
    obtain ⟨event, hmem, hevent⟩ := List.any_eq_true.1 hseen.1
    unfold isCreated at hevent
    split at hevent
    · next number n origin spec v =>
      obtain rfl : n = "p" := of_decide_eq_true hevent
      have hfresh : everyone.DrawsFresh heard.history "p" := (run.ownApart_of_all hseen.2).new
      cases run.allOrNothing (a := ⟨number, "p", origin, .create spec⟩) hfresh rfl hmem with
      | announced hannounced => exact ⟨_, spec, _, _, hannounced⟩
    · cases hevent

end TaskSwarm.Swarm
