/-
Decisions about somebody else's proposal.

The copy that its proposer keeps decides about a proposal, and five requests ask for a
decision: to lock it, to give the lock back, to accept somebody, and to take note of a
status or a result. Only the one about acceptance asks whether the node is the proposer.
The others are carried out on the copy of any node, as far as the copy allows it:
`Oversteps` lists when, and there is no other way for such a request to touch a copy
(`Run.foreign_decided_iff`). `copy_locked` is a run in which a node grants the lock of a
proposal that is not its own.
-/
import TaskSwarm.Proofs.Store.History
import TaskSwarm.Proofs.Swarm.Settled

set_option autoImplicit false

namespace TaskSwarm

/-- The proposal that a request wants a decision about. -/
def Inbound.decided? : Inbound → Option String
  | .lock r => some r.proposalId
  | .unlock u => some u.proposalId
  | .acceptance x => some x.proposalId
  | .status u => some u.taskId
  | .result x => some x.proposalId
  | .proposal _ | .cancellation _ => none

namespace Proposal

/-- The lock of a proposal is to be had by others than its proposer, if it is PROPOSED or its lock has
expired. -/
theorem lockDenial?_eq_none_iff {p : Proposal} {requester : PeerId} {now timeout : Int64} :
    p.lockDenial? requester now timeout = none ↔ requester ≠ p.proposer ∧
      (p.state = .proposed ∨ (p.state = .locked ∧ ¬ p.lockAge now < timeout)) := by
  unfold lockDenial?
  by_cases hself : requester = p.proposer
  · simp [hself]
  · rw [if_neg hself]
    cases hstate : p.state <;> simp [hself]

end Proposal

namespace Node

variable {s : Settings} {past : List Entry} {sender : PeerId} {m : Inbound} {k : String} {c : Command}
  {p q : Proposal} {timeout : Int64}

/-- What a request for a decision does to a copy of somebody else's proposal, as the node `n` keeps it:
the commands that are carried out, each with what the copy has to allow for that. -/
inductive Oversteps (n : PeerId) (timeout : Int64) (past : List Entry) (sender : PeerId)
    (p : Proposal) : Inbound → Command → Prop
  | lock {r : LockRequest} {now : Int64} : r.requester ≠ p.proposer →
      p.state = .proposed ∨ (p.state = .locked ∧ ¬ p.lockAge now < timeout) →
      Oversteps n timeout past sender p (.lock r) (.lock r now)
  | unlock {u : UnlockRequest} : p.lockId = some u.token → p.state.canBecome .proposed = true →
      Oversteps n timeout past sender p (.unlock u) (.unlock u)
  | status {u : StatusUpdate} {found : Proposal} : Looked past u.taskId found →
      checkExecutor found sender = .ok () → u.status = .running ∨ u.status = .failed →
      p.state.canBecome u.status = true →
      Oversteps n timeout past sender p (.status u)
        (.transition u.taskId u.status (.ofProgress u.progress))
  | progress {u : StatusUpdate} {found : Proposal} : Looked past u.taskId found →
      checkExecutor found sender = .ok () →
      Oversteps n timeout past sender p (.status u) (.setProgress u.taskId u.progress)
  | result {x : TaskResult} {found : Proposal} : Looked past x.proposalId found →
      checkExecutor found sender = .ok () → p.state.canBecome .completed = true →
      Oversteps n timeout past sender p (.result x)
        (.transition x.proposalId .completed (.ofResult x.result))
  /-- The node had a proposal of its own under that id when it looked, which is gone since. -/
  | acceptance {x : Acceptance} {found : Proposal} : Looked past x.proposalId found →
      found.proposer = n → found.state = .locked → p.state.canBecome .accepted = true →
      Oversteps n timeout past sender p (.acceptance x)
        (.transition x.proposalId .accepted (.ofExecutor x.acceptedBy))
  | withdrawal {x : Acceptance} {found : Proposal} : Looked past x.proposalId found →
      found.proposer = n → found.state = .locked → found.container.inputFiles ≠ [] →
      p.state.canBecome .proposed = true →
      Oversteps n timeout past sender p (.acceptance x)
        (.transition x.proposalId .proposed .none)

/-- A peer asks for nothing to be removed. -/
theorem ne_remove_of_handle (hpermits : Permits s (.handle sender m) past (.store c)) :
    c ≠ .remove k := by
  rintro rfl
  obtain ⟨_, _, _, ho, -⟩ := hpermits
  cases ho

/-- What such a request changes, it changes in one of the ways listed, and those do change it. -/
theorem changes_iff_oversteps (hm : m.decided? = some k)
    (hid : ∀ {id found}, Looked past id found → found.id = id)
    (hpermits : Permits s (.handle sender m) past (.store c)) :
    (∃ q, p.Changes timeout k c q) ↔ Oversteps s.peer timeout past sender p m c := by
  constructor
  · rintro ⟨q, hchanges⟩
    cases hchanges with
    | moved hmoved =>
      have hcan := Store.canBecome_of_moved hmoved
      cases hpermits with
      | status ho hlooked hcheck hstatus => cases ho; exact .status hlooked hcheck hstatus hcan
      | result ho hlooked hcheck => cases ho; exact .result hlooked hcheck hcan
      | acceptance ho hlooked hown hstate =>
        cases ho
        rw [hid hlooked]
        exact .acceptance hlooked hown hstate hcan
      | withdrawal ho hlooked hown hstate hfiles =>
        cases ho
        rw [hid hlooked]
        exact .withdrawal hlooked hown hstate hfiles hcan
      | cancellation ho => cases ho; cases hm
      | lock hclaiming | undo hclaiming | take hclaiming =>
        obtain ⟨id, hclaimed, -⟩ := hclaiming.looked
        cases hclaimed
      | _ ho => cases ho
    | progressed =>
      obtain ⟨_, u, found, ho, rfl, rfl, hlooked, hcheck⟩ := hpermits
      cases ho
      exact .progress hlooked hcheck
    | locked _ hgrant =>
      obtain ⟨_, ho⟩ := hpermits
      cases ho
      have hdenial := (Proposal.grant_eq_ok_iff.1 hgrant).1
      obtain ⟨hother, hfree⟩ := Proposal.lockDenial?_eq_none_iff.1 hdenial
      exact .lock hother hfree
    | unlocked _ hrelease =>
      obtain ⟨_, ho⟩ := hpermits
      cases ho
      obtain ⟨htoken, hmoved⟩ := Proposal.release_eq_ok_iff.1 hrelease
      exact .unlock htoken (Store.canBecome_of_moved hmoved)
  · intro hoversteps
    -- Each way is a command that the copy allows.
    cases hoversteps with
    | lock hother hfree =>
      have hdenial := Proposal.lockDenial?_eq_none_iff.2 ⟨hother, hfree⟩
      exact ⟨_, .locked (Option.some.inj hm) (Proposal.grant_eq_ok_iff.2 ⟨hdenial, rfl⟩)⟩
    | unlock htoken hcan =>
      obtain ⟨q, hmoved⟩ : ∃ q, Store.moved p .proposed .none = .ok q :=
        (Store.exists_moved_iff (by decide)).2 hcan
      exact ⟨q, .unlocked (Option.some.inj hm) (Proposal.release_eq_ok_iff.2 ⟨htoken, hmoved⟩)⟩
    | progress =>
      obtain rfl := Option.some.inj hm
      exact ⟨_, .progressed⟩
    | status _ _ hstatus hcan =>
      obtain rfl := Option.some.inj hm
      obtain ⟨q, hmoved⟩ := (Store.exists_moved_iff
        (by rcases hstatus with h | h <;> rw [h] <;> decide)).2 hcan
      exact ⟨q, .moved hmoved⟩
    | result _ _ hcan | acceptance _ _ _ hcan | withdrawal _ _ _ _ hcan =>
      obtain rfl := Option.some.inj hm
      obtain ⟨q, hmoved⟩ := (Store.exists_moved_iff (by decide)).2 hcan
      exact ⟨q, .moved hmoved⟩

end Node

namespace Swarm

open TaskSwarm.Node

variable {w : Swarm} {h newer older : List Event} {a : Activity} {sender : PeerId} {m : Inbound}
  {k : String} {p : Proposal}

theorem Run.carried_out_iff_oversteps {c : Command} {answer : c.Reply}
    (run : w.Run (.asked a (.store c) answer :: older)) (ho : a.operation = .handle sender m)
    (hm : m.decided? = some k) (hp : w.record older a.peer k = some p) :
    c.subject? = some k ∧ c.refuses answer = false ↔
      Oversteps a.peer (w.store older a.peer).lockTimeout (own a older) sender p m c := by
  have hid : ∀ {id found}, Looked (own a older) id found → found.id = id := run.tail.id_of_looked
  have hpermits := run.permits
  rw [ho] at hpermits
  have hremove : c ≠ .remove k := ne_remove_of_handle hpermits
  have hanswer : answer = ((w.store older a.peer).step c).2.1 := run.possible
  subst hanswer
  rw [Store.carried_out_iff hp, or_iff_right hremove, changes_iff_oversteps hm hid hpermits, w.named]

theorem Run.unchanged_of_not_oversteps {c : Command} {answer : c.Reply}
    (run : w.Run (.asked a (.store c) answer :: older)) (ho : a.operation = .handle sender m)
    (hm : m.decided? = some k) (hp : w.record older a.peer k = some p)
    (hnot : ¬ Oversteps a.peer (w.store older a.peer).lockTimeout (own a older) sender p m c) :
    w.record (.asked a (.store c) answer :: older) a.peer k = some p := by
  rw [← run.carried_out_iff_oversteps ho hm hp] at hnot
  have hanswer : answer = ((w.store older a.peer).step c).2.1 := run.possible
  subst hanswer
  simp only [record, store, if_pos]
  by_cases hk : c.subject? = some k
  · have hrefused : c.refuses ((w.store older a.peer).step c).2.1 = true := by simpa [hk] using hnot
    rw [(Store.step_of_refuses hrefused).1]
    exact hp
  · rw [Store.step_of_subject_ne hk]
    exact hp

/-- **What others decide about.** Of the commands of a request for a decision about somebody else's
proposal, those are carried out that `Oversteps` lists, and the copy stays as it was under all others.
The request for a lock says that the lock is granted exactly if it was, and the one to be accepted
changes a copy only where a proposal of the node's own has been removed under the same id. -/
theorem Run.foreign_decided_iff (run : w.Run h) (ho : a.operation = .handle sender m)
    (hm : m.decided? = some k) :
    (∀ older c answer p, .asked a (.store c) answer :: older <:+ h →
      w.record older a.peer k = some p → p.proposer ≠ a.peer →
      (c.subject? = some k ∧ c.refuses answer = false ↔
        Oversteps a.peer (w.store older a.peer).lockTimeout (own a older) sender p m c) ∧
      (¬ Oversteps a.peer (w.store older a.peer).lockTimeout (own a older) sender p m c →
        w.record (.asked a (.store c) answer :: older) a.peer k = some p) ∧
      (∀ x, m = .acceptance x →
        Oversteps a.peer (w.store older a.peer).lockTimeout (own a older) sender p m c →
        ∃ b removed, .asked b (.store (.remove k)) removed ∈ older ∧ b.peer = a.peer)) ∧
    ∀ r outcome, m = .lock r → .ended a outcome ∈ h →
      ∃ older now decision, .asked a (.store (.lock r now)) decision :: older <:+ h ∧
        outcome = .ok (LockAnswer.codec.encode (.ofDecision decision)).canonical ∧
        ∀ p, w.record older a.peer k = some p → p.proposer ≠ a.peer →
          ((LockAnswer.ofDecision decision).success = true ↔
            Oversteps a.peer (w.store older a.peer).lockTimeout (own a older) sender p m
              (.lock r now)) := by
  constructor
  · intro older c answer p hsuffix hp hforeign
    have hrun := run.of_suffix hsuffix
    refine ⟨hrun.carried_out_iff_oversteps ho hm hp, hrun.unchanged_of_not_oversteps ho hm hp, ?_⟩
    rintro x rfl hoversteps
    obtain rfl : x.proposalId = k := Option.some.inj hm
    -- It found a proposal of its own, and the one that is there now is another.
    obtain ⟨found, hlooked, hown⟩ : ∃ found, Looked (own a older) x.proposalId found ∧
        found.proposer = a.peer := by
      cases hoversteps with
      | acceptance hlooked hown => exact ⟨_, hlooked, hown⟩
      | withdrawal hlooked hown => exact ⟨_, hlooked, hown⟩
    obtain ⟨before, ⟨between, rfl⟩, hfound⟩ := hrun.tail.record_of_looked hlooked
    refine Classical.byContradiction fun hnone => hforeign ?_
    have hkept : ∀ b removed, .asked b (.store (.remove x.proposalId)) removed ∈ between →
        b.peer ≠ a.peer := fun b removed hmem hpeer =>
      hnone ⟨b, removed, List.mem_append_left _ hmem, hpeer⟩
    obtain ⟨r, hr, hkin⟩ := record_kept hfound hkept
    cases hp.symm.trans hr
    exact hkin.proposer.trans hown
  · rintro r outcome rfl hended
    obtain ⟨newer, older, rfl⟩ := List.append_of_mem hended
    have hends := run.of_append.ends
    rw [ho] at hends
    obtain ⟨now, decision, hgot, rfl⟩ := hends
    obtain ⟨between, before, rfl⟩ := List.append_of_mem (got_own_iff.1 hgot)
    refine ⟨before, now, decision, ?_, rfl, fun p hp _ => ?_⟩
    · exact (List.suffix_append between _).trans suffix_append_cons
    · rw [← run.of_append.tail.of_append.carried_out_iff_oversteps ho hm hp]
      obtain rfl : r.proposalId = k := Option.some.inj hm
      cases decision <;>
        simp [LockAnswer.ofDecision, LockAnswer.granted, LockAnswer.denied, Command.subject?,
          Command.refuses]

/-- `a` hears of a task of `p`, and `p` itself asks `a` for its lock. -/
def proposerAsks : List Turn :=
  [.outsider "a" "x" (.proposal (.new "t" "p" (echo []) 0)), .go 0 (calm ""), .go 0 (calm ""),
    .outsider "a" "p" (.lock ⟨"t", "L", "p"⟩), .go 3 (calm ""), .go 3 (calm "")]

theorem proposer_denied : ∃ a t d older p,
    (among ["a"]).played proposerAsks = .asked a (.store (.lock ⟨"t", "L", "p"⟩ t)) d :: older ∧
      a.operation = .handle "p" (.lock ⟨"t", "L", "p"⟩) ∧
        (among ["a"]).record older a.peer "t" = some p ∧ p.proposer ≠ a.peer ∧
          (among ["a"]).record ((among ["a"]).played proposerAsks) a.peer "t" = some p := by
  obtain ⟨a, t, d, older, p, hevent, ho, hp, hproposer, hforeign⟩ : ∃ a t d older p,
      (among ["a"]).played proposerAsks = .asked a (.store (.lock ⟨"t", "L", "p"⟩ t)) d :: older ∧
        a.operation = .handle "p" (.lock ⟨"t", "L", "p"⟩) ∧
          (among ["a"]).record older a.peer "t" = some p ∧ p.proposer = "p" ∧ "p" ≠ a.peer :=
    ⟨_, _, _, _, _, rfl, rfl, rfl, rfl, by decide⟩
  have run := run_played (w := among ["a"]) proposerAsks
  rw [hevent] at run
  rw [← hproposer] at hforeign
  obtain ⟨-, hunchanged, -⟩ := (run.foreign_decided_iff ho rfl).1 _ _ _ p List.suffix_rfl hp hforeign
  refine ⟨a, t, d, older, p, hevent, ho, hp, hforeign, hevent ▸ hunchanged ?_⟩
  intro hoversteps
  cases hoversteps with
  | lock hother => exact hother hproposer.symm

/-- `a` hears of a task of `p`, and `y` asks `a` for its lock. -/
def copyLocked : List Turn :=
  [.outsider "a" "x" (.proposal (.new "t" "p" (echo []) 0)), .go 0 (calm ""), .go 0 (calm ""),
    .outsider "a" "y" (.lock ⟨"t", "L", "y"⟩), .go 3 (calm ""), .go 3 (calm ""), .finish 3]

/-- `a` says that `y` has the lock of the task of `p`, and its copy is LOCKED from then on. -/
theorem copy_locked : ∃ h a t older p r, (among ["a"]).Run h ∧
    h = .ended a (.ok (LockAnswer.codec.encode (.granted "L")).canonical) ::
      .asked a (.store (.lock ⟨"t", "L", "y"⟩ t)) (.granted "L" .proposed) :: older ∧
      a.peer = "a" ∧ a.operation = .handle "y" (.lock ⟨"t", "L", "y"⟩) ∧
        (among ["a"]).record older "a" "t" = some p ∧ p.proposer = "p" ∧ p.state = .proposed ∧
          (among ["a"]).record h "a" "t" = some r ∧ r.proposer = "p" ∧ r.state = .locked ∧
            r.lockedBy = some "y" :=
  ⟨_, _, _, _, _, _, run_played copyLocked, rfl, rfl, rfl, rfl, rfl, rfl, rfl, rfl, rfl, rfl⟩

end Swarm

end TaskSwarm
