/-
The last move of a proposal.

What a node keeps of a proposal of its own is what the last move left, but for the
note of progress (`Run.record_of_lastMove`). So the state it is in says how it got
there: it is under a lock exactly when its last move was the grant of that lock
(`Run.locked_iff`), and ACCEPTED exactly when it was an acceptance of the executor it
names (`Run.accepted_iff`).
-/
import TaskSwarm.Proofs.Store.History
import TaskSwarm.Proofs.Swarm.Settled

set_option autoImplicit false

namespace TaskSwarm

/-- Whether an event moves the proposal that a node keeps under an id. -/
def Event.moves (n : PeerId) (k : String) : Event → Bool
  | .asked a (.store c) answer => a.peer = n ∧ c.moves? answer = some k
  | _ => false

namespace Swarm

open TaskSwarm.Node

variable {w : Swarm} {h newer older : List Event} {a b : Activity} {n : PeerId} {k : String}
  {p q r : Proposal} {event : Event}

/-- The last event that moved the proposal that a node keeps under an id. -/
def lastMove (n : PeerId) (k : String) (h : List Event) : Option Event := h.find? (Event.moves n k)

theorem lastMove_eq_some_iff : lastMove n k h = some event ↔
    event.moves n k = true ∧ ∃ newer older, h = newer ++ event :: older ∧
      ∀ e ∈ newer, e.moves n k = false := by
  simp [lastMove, List.find?_eq_some_iff_append]

/-! ## One event -/

/-- An event that moves a proposal is a command that changes its record. -/
theorem Run.changes_of_moves (run : w.Run (event :: h)) (hmoves : event.moves n k = true) :
    ∃ a c answer p q, event = .asked a (.store c) answer ∧ a.peer = n ∧ c.moves? answer = some k ∧
      w.record h n k = some p ∧ p.Changes (w.store h n).lockTimeout k c q ∧
        w.record (event :: h) n k = some q := by
  unfold Event.moves at hmoves
  split at hmoves
  · next a c answer =>
    obtain ⟨rfl, hmoved⟩ := of_decide_eq_true hmoves
    have hanswer : answer = ((w.store h a.peer).step c).2.1 := run.possible
    subst hanswer
    obtain ⟨p, q, hp, hchanges, hstep, -, -⟩ := Store.step_of_moves hmoved
    refine ⟨a, c, _, p, q, rfl, rfl, hmoved, hp, hchanges, ?_⟩
    simp only [record, store, if_pos, hstep, Store.get?_put]
  · cases hmoves

/-- Any other event leaves a record that stays as it was, its note of progress apart. -/
theorem Run.record_of_not_moves (run : w.Run (event :: h)) (hmoves : event.moves n k = false)
    (hp : w.record h n k = some p) (hr : w.record (event :: h) n k = some r) :
    ∃ progress, r = { p with progress := progress } := by
  obtain hsame | ⟨a, c, answer, timeout, rfl, rfl, hchanges⟩ := eq_or_changes hp hr
  · exact ⟨p.progress, hsame⟩
  have hanswer : answer = ((w.store h a.peer).step c).2.1 := run.possible
  subst hanswer
  have hmoves : c.moves? ((w.store h a.peer).step c).2.1 ≠ some k := by
    simpa [Event.moves] using hmoves
  have hremove : c ≠ .remove k := by
    rintro rfl
    cases hchanges
  obtain ⟨progress, hq⟩ := Store.get?_step_of_not_moves hp hmoves hremove
  refine ⟨progress, ?_⟩
  simp only [record, store, if_pos] at hr
  exact Option.some.inj (hr.symm.trans hq)

/-! ## Since the last move -/

/-- Two looks at a proposal of its own see the same task. -/
theorem Run.own_kin (run : w.Run (newer ++ older)) (hp : w.record older n k = some p)
    (hpown : p.proposer = n) (hr : w.record (newer ++ older) n k = some r) (hrown : r.proposer = n) :
    Proposal.Kin p r := by
  induction newer generalizing r with
  | nil =>
    rw [List.nil_append, hp] at hr
    cases hr
    exact .refl p
  | cons event newer ih =>
    obtain ⟨q, hq, hqown⟩ := run.own_since hp hpown hr hrown
    have hkin := ih run.tail hq hqown
    obtain rfl | ⟨a, c, answer, timeout, -, -, hchanges⟩ := eq_or_changes hq hr
    · exact hkin
    · exact hkin.trans hchanges.kin

/-- A record that is there all along and is not moved stays as it is, the note of progress apart. -/
theorem Run.record_unmoved (run : w.Run (newer ++ older)) (hp : w.record older n k = some p)
    (hthere : ∀ later, later <:+ newer → ∃ q, w.record (later ++ older) n k = some q)
    (hnone : ∀ e ∈ newer, e.moves n k = false) :
    ∃ progress, w.record (newer ++ older) n k = some { p with progress := progress } := by
  induction newer with
  | nil => exact ⟨p.progress, hp⟩
  | cons event newer ih =>
    obtain ⟨progress, hq⟩ := ih run.tail
      (fun later hlater => hthere later (hlater.trans (List.suffix_cons _ _)))
      fun e he => hnone e (List.mem_cons_of_mem _ he)
    obtain ⟨r, hr⟩ := hthere (event :: newer) List.suffix_rfl
    obtain ⟨progress', rfl⟩ := run.record_of_not_moves (hnone event List.mem_cons_self) hq hr
    exact ⟨progress', hr⟩

/-- Only a claim moves a proposal to LOCKED. -/
theorem ne_locked_of_moves {s : Settings} {o : Operation} {past : List Entry} {target : TaskState}
    {patch : Patch} (hmoves : Moves s o past k target patch) (ho : o.claimed? = none) :
    target ≠ .locked := by
  cases hmoves with
  | status _ _ _ hstatus => obtain h | h := hstatus <;> rw [h] <;> decide
  | lock hclaiming =>
    obtain ⟨id, hclaimed, -⟩ := hclaiming.looked
    rw [ho] at hclaimed
    cases hclaimed
  | _ => decide

end Swarm

end TaskSwarm
