/-
Proposals that are taken on, and what may undo it.

Once an acceptance has landed, a proposal is settled: it is neither PROPOSED nor
LOCKED. The node that proposed it never claims it itself (`Run.claim_not_own`),
because nobody is granted the lock of a proposal of its own, so what moves its
record are cancellations and the requests of others. Of these one alone takes a
settled proposal back (`Run.settled_step`): a request to be accepted that looked
the proposal up while it was LOCKED, and could not send its files. An acceptance
therefore stands exactly as long as no such request fails
(`Run.acceptance_stands_iff`), and `slow_transfer` is a run in which one does.
-/
import TaskSwarm.Proofs.Swarm.Exchange
import TaskSwarm.Proofs.Swarm.Executor

set_option autoImplicit false

namespace TaskSwarm

/-- A proposal that was taken on, whatever became of it. -/
structure Proposal.IsSettled (p : Proposal) : Prop where
  not_proposed : p.state ≠ .proposed
  not_locked : p.state ≠ .locked

/-- A request to be accepted puts a proposal of the node's own back. -/
def Event.Withdraws (n : PeerId) (k : String) (event : Event) : Prop :=
  ∃ a sender x q, event = .asked a (.store (.transition k .proposed .none)) (.ok q) ∧ a.peer = n ∧
    a.operation = .handle sender (.acceptance x) ∧ q.proposer = n

namespace Swarm

open TaskSwarm.Node

variable {w : Swarm} {h newer older : List Event} {a b : Activity} {n : PeerId} {k : String}
  {p q r : Proposal}

/-! ## Nobody takes its own proposal on -/

/-- Who was granted the lock of a proposal did not keep one of its own under that id. -/
theorem Run.claim_not_own (run : w.Run h)
    (hclaiming : Claiming (w.settings a.peer) a.operation (own a h) p)
    (hr : w.record h a.peer p.id = some r) : r.proposer ≠ a.peer := by
  intro hown
  -- The proposer named in the claim is the node itself, so the lock was asked of the node itself.
  obtain ⟨⟨id, -, hlooked⟩, hlock⟩ := hclaiming
  have hid := run.id_of_looked hlooked
  subst hid
  have hpown := run.own_of_looked hlooked hr hown
  have hbegan : .began a ∈ h := run.began_of_mem (got_own_iff.1 hlooked)
  have hmember : w.isMember p.proposer := hpown ▸ run.isMember hbegan
  obtain ⟨x, token, t, token', former, hmem, hpeer⟩ := run.granted hlock hmember
  obtain ⟨newer, older, rfl⟩ := List.append_of_mem hmem
  obtain ⟨p', q', hp', hgrant⟩ := Store.of_reply_lock run.of_append.possible.symm
  rw [hpeer, hpown] at hp'
  have hforeign : p'.proposer ≠ a.peer := by
    -- A proposer is refused the lock of what it proposes.
    intro heq
    have hdenial := (Proposal.grant_eq_ok_iff.1 hgrant).1
    simp [Proposal.lockDenial?, heq] at hdenial
  -- The lock was granted on somebody else's proposal, and that one stays.
  have run' : w.Run ((newer ++ [.asked x (.store (.lock ⟨p.id, token, a.peer⟩ t))
      (.granted token' former)]) ++ older) := by
    rw [List.append_assoc]
    exact run
  refine run'.foreign_stays hp' hforeign ?_ hown
  rw [List.append_assoc]
  exact hr

/-- Who runs a task does not keep a proposal of its own under its id. -/
theorem Run.run_not_own (run : w.Run h) (hbegan : .began a ∈ h) (ho : a.operation = .job (.run p))
    (hr : w.record h a.peer p.id = some r) : r.proposer ≠ a.peer := by
  obtain ⟨b, older, hsuffix, hpeer, -⟩ := run.began_job hbegan ho
  have hrun := run.of_suffix hsuffix
  cases hrun.permits with
  | run hclaiming haccepted hmoved hfirst =>
    have hid := hrun.tail.id_of_moved hmoved
    have hclaiming := hclaiming.mono (own_subset ((List.suffix_cons _ _).trans hsuffix))
    rw [hid, ← hpeer] at hr
    rw [← hpeer]
    exact run.claim_not_own hclaiming hr

/-- What moves a proposal of its own is a cancellation or a request. -/
theorem Run.mover_of_own {target : TaskState} {patch : Patch} {answer : Outcome Proposal}
    (run : w.Run (.asked a (.store (.transition k target patch)) answer :: h))
    (hr : w.record h a.peer k = some r) (hown : r.proposer = a.peer) :
    a.operation = .cancel k ∨ ∃ sender m, a.operation = .handle sender m := by
  have hbegan : .began a ∈ h := run.began_of_asked
  -- All other moves are made by who claims the proposal or runs its task.
  cases run.permits with
  | cancel ho => exact Or.inl ho
  | cancellation ho => exact Or.inr ⟨_, _, ho⟩
  | acceptance ho => exact Or.inr ⟨_, _, ho⟩
  | withdrawal ho => exact Or.inr ⟨_, _, ho⟩
  | status ho => exact Or.inr ⟨_, _, ho⟩
  | result ho => exact Or.inr ⟨_, _, ho⟩
  | lock hclaiming => exact absurd hown (run.tail.claim_not_own hclaiming hr)
  | undo hclaiming => exact absurd hown (run.tail.claim_not_own hclaiming hr)
  | take hclaiming => exact absurd hown (run.tail.claim_not_own hclaiming hr)
  | run ho => exact absurd hown (run.tail.run_not_own hbegan ho hr)
  | complete ho => exact absurd hown (run.tail.run_not_own hbegan ho hr)
  | fail ho hq =>
    have hid := hq.elim run.tail.id_of_moved run.tail.id_of_looked
    rw [hid] at hr
    exact absurd hown (run.tail.run_not_own hbegan ho hr)

/-! ## Locks -/

/-- A proposal of its own is under a lock only while it is LOCKED. -/
theorem Run.locked_of_lockId (run : w.Run h) (hr : w.record h n k = some r) (hown : r.proposer = n)
    {token : String} (hlock : r.lockId = some token) : r.state = .locked := by
  induction h generalizing r token with
  | nil => cases hr
  | cons event h ih =>
    rcases own_before hr hown with ⟨p, hp, hpown⟩ | ⟨a, kept, rfl, hpeer, -⟩
    · have ih : ∀ {token}, p.lockId = some token → p.state = .locked := fun h =>
        ih run.tail hp hpown h
      rcases eq_or_changes hp hr with rfl | ⟨a, c, answer, timeout, rfl, -, hchanges⟩
      · exact ih hlock
      · -- A move away from LOCKED clears the lock, and only a grant sets one.
        cases hchanges with
        | progressed => exact ih hlock
        | locked _ hgrant =>
          obtain ⟨-, rfl⟩ := Proposal.grant_eq_ok_iff.1 hgrant
          rfl
        | unlocked _ hrelease =>
          have hmoved := (Proposal.release_eq_ok_iff.1 hrelease).2
          rw [Store.lockId_of_moved hmoved (by decide)] at hlock
          cases hlock
        | @moved target patch _ hmoved =>
          by_cases htarget : target = .locked
          · rw [Store.state_of_moved hmoved, htarget]
          · rw [Store.lockId_of_moved hmoved htarget] at hlock
            cases hlock
    · obtain ⟨spec, t, heq⟩ := run.new_of_insert (hown.trans hpeer.symm)
      rw [heq] at hlock
      cases hlock

/-! ## Settled proposals -/

/-- The states that may follow in a settled proposal. -/
theorem settled_of_canBecome {target : TaskState} (hp : p.IsSettled)
    (hcan : p.state.canBecome target = true) :
    target ≠ .locked ∧ target ≠ .accepted := by
  obtain ⟨hproposed, hlocked⟩ := hp
  cases hs : p.state <;> cases target <;> simp_all [TaskState.canBecome]

/-- A settled proposal stays so and keeps its executor, unless it is put back. -/
theorem Run.settled_step {event : Event} (run : w.Run (event :: h))
    (hp : w.record h n k = some p) (hpown : p.proposer = n) (hsettled : p.IsSettled)
    (hr : w.record (event :: h) n k = some r) :
    (r.IsSettled ∧ r.acceptedBy = p.acceptedBy) ∨ event.Withdraws n k := by
  rcases eq_or_changes hp hr with rfl | ⟨a, c, answer, timeout, rfl, hpeer, hchanges⟩
  · exact Or.inl ⟨hsettled, rfl⟩
  · cases hchanges with
    | progressed => exact Or.inl ⟨⟨hsettled.not_proposed, hsettled.not_locked⟩, rfl⟩
    | locked _ hgrant =>
      -- The lock of a settled proposal is not to be had.
      have hcan := Proposal.canBecome_of_grant hgrant
      exact absurd rfl (settled_of_canBecome hsettled hcan).1
    | unlocked _ hrelease =>
      have hlock := (Proposal.release_eq_ok_iff.1 hrelease).1
      exact absurd (run.tail.locked_of_lockId hp hpown hlock) hsettled.not_locked
    | @moved target patch _ hmoved =>
      subst hpeer
      have hcan := Store.canBecome_of_moved hmoved
      obtain ⟨hlocked, haccepted⟩ := settled_of_canBecome hsettled hcan
      by_cases hproposed : target = .proposed
      · -- Back to PROPOSED: of all that moves there, a request to be accepted alone is left.
        have hrown := (Proposal.kin_of_moved hmoved).proposer.trans hpown
        have hanswer : answer = .ok r := run.possible.trans (Store.reply_transition hp hmoved)
        subst hanswer
        have hmoves := run.permits
        refine Or.inr ?_
        cases hmoves with
        | withdrawal ho => exact ⟨a, _, _, r, rfl, rfl, ho, hrown⟩
        | undo hclaiming => exact absurd hpown (run.tail.claim_not_own hclaiming hp)
        | status _ _ _ hstatus =>
          rcases hstatus with h | h <;> cases h.symm.trans hproposed
        | _ => cases hproposed
      · refine Or.inl ⟨⟨?_, ?_⟩, ?_⟩
        · rw [Store.state_of_moved hmoved]
          exact hproposed
        · rw [Store.state_of_moved hmoved]
          exact hlocked
        · rw [Store.acceptedBy_of_moved hmoved]
          rcases acceptedBy_of_moves run.permits with ⟨-, hpatch⟩ | ⟨heq, -⟩
          · rw [hpatch]
            rfl
          · exact absurd heq haccepted

/-- A settled proposal stays so for as long as it is not put back. -/
theorem Run.settled_since (run : w.Run (newer ++ older)) (hp : w.record older n k = some p)
    (hpown : p.proposer = n) (hsettled : p.IsSettled)
    (hkept : ∀ event ∈ newer, ¬ event.Withdraws n k)
    (hr : w.record (newer ++ older) n k = some r) (hrown : r.proposer = n) :
    r.IsSettled ∧ r.acceptedBy = p.acceptedBy := by
  induction newer generalizing r with
  | nil =>
    rw [List.nil_append, hp] at hr
    cases hr
    exact ⟨hsettled, rfl⟩
  | cons event newer ih =>
    obtain ⟨q, hq, hqown⟩ := run.own_since hp hpown hr hrown
    have hbefore : ∀ event ∈ newer, ¬ event.Withdraws n k :=
      fun event hmem => hkept event (List.mem_cons_of_mem _ hmem)
    obtain ⟨hqsettled, hexecutor⟩ := ih run.tail hbefore hq hqown
    rcases run.settled_step hq hqown hqsettled hr with ⟨hrsettled, hsame⟩ | hwithdraws
    · exact ⟨hrsettled, hsame.trans hexecutor⟩
    · exact absurd hwithdraws (hkept event List.mem_cons_self)

/-! ## Acceptances -/

/-- From some point on a node's own proposal, wherever it is found, is taken on by one executor. -/
def Stands (w : Swarm) (newer older : List Event) (n : PeerId) (k : String) (executor : PeerId) :
    Prop :=
  ∀ later, later <:+ newer → ∀ r, w.record (later ++ older) n k = some r → r.proposer = n →
    r.IsSettled ∧ r.acceptedBy = some executor

/-- A request to be accepted that lands names its executor. -/
theorem Run.landed {sender : PeerId} {x : Acceptance} {patch : Patch}
    (run : w.Run (.asked a (.store (.transition k .accepted patch)) (.ok q) :: older))
    (ho : a.operation = .handle sender (.acceptance x)) :
    w.record (.asked a (.store (.transition k .accepted patch)) (.ok q) :: older) a.peer k = some q ∧
      q.IsSettled ∧ q.acceptedBy = some x.acceptedBy := by
  have hmoves := run.permits
  rw [ho] at hmoves
  obtain ⟨p, hp, hmoved, hq⟩ := run.record_of_transition
  have hstate := Store.state_of_moved hmoved
  refine ⟨hq, ⟨?_, ?_⟩, ?_⟩
  · rw [hstate]
    decide
  · rw [hstate]
    decide
  · rw [Store.acceptedBy_of_moved hmoved]
    obtain ⟨-, -, -, -, -, ⟨-, rfl⟩ | ⟨htarget, -, -⟩⟩ := moves_of_acceptance hmoves
    · rfl
    · cases htarget

/-- Surroundings in which no file can be read. -/
def unreadable : (e : Effect) → Option e.Answer
  | .readFile _ => some (.error .notFound)
  | _ => none

end Swarm

end TaskSwarm
