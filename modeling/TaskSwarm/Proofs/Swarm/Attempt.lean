/-
What a claim comes to at its own node.

A claim that comes through was accepted, its copy is moved to ACCEPTED in its name, and
its slot goes to one job that runs the task; a claim that fails has given its slot back
and sets nothing running, now or later. Its copy is not left under its token either,
as far as it goes by what the claim does: whatever it locks it moves on
(`Run.moved_on`). Others may lock the copy under that token all the same, since a lock
is granted on whatever a node keeps, and `Run.attempt_comes_to` says that this is the
only way in which the copy is under it. `relocked_copy` is a run in which they do.
-/
import TaskSwarm.Proofs.Node.Attempt
import TaskSwarm.Proofs.Swarm.Admission
import TaskSwarm.Proofs.Swarm.Slots
import TaskSwarm.Proofs.Swarm.Stranded

set_option autoImplicit false

namespace TaskSwarm.Swarm

open TaskSwarm.Node

variable {w : Swarm} {h newer older : List Event} {a b c x : Activity} {n : PeerId} {k id token : String}
  {p q r : Proposal} {event : Event} {o : Outcome Json}

/-! ## The lock that the last move left -/

/-- A record is LOCKED under a token exactly if its last move left such a lock, or if it came in so and
has not been moved. -/
theorem Run.locked_since_iff (run : w.Run (newer ++ .asked b (.store (.insert p)) true :: older))
    (hmade : w.Made newer b p older n k)
    (hr : w.record (newer ++ .asked b (.store (.insert p)) true :: older) n k = some r) :
    r.state = .locked ∧ r.lockId = some token ↔
      (∃ x c answer lock, lastMove n k newer = some (.asked x (.store c) answer) ∧
        c.lockLeft none = some lock ∧ lock.token = token) ∨
      (lastMove n k newer = none ∧ p.state = .locked ∧ p.lockId = some token) := by
  cases hlast : lastMove n k newer with
  | some event =>
    obtain ⟨x, c, answer, rfl, hunder⟩ := run.isUnder_of_lastMove hmade hr hlast
    rw [hunder.token_iff]
    constructor
    · rintro ⟨lock, hlock, htoken⟩
      exact .inl ⟨x, c, answer, lock, rfl, hlock, htoken⟩
    · rintro (⟨_, _, _, lock, heq, hlock, htoken⟩ | ⟨hnone, -⟩)
      · cases heq
        exact ⟨lock, hlock, htoken⟩
      · cases hnone
  | none =>
    obtain ⟨progress, rfl⟩ := run.unmoved_since hmade hr hlast
    simp

/-! ## What a claim locks -/

theorem Run.copyAsks {e : Effect} {answer : e.Answer} (run : w.Run (.asked a e answer :: h))
    (hclaim : a.operation.claimed? ≠ none) : CopyAsks (w.settings a.peer) (own a h) e :=
  run.asksAs (obeys_copy hclaim)

theorem Run.attemptEnds (run : w.Run (.ended a o :: h)) (hclaim : a.operation.claimed? ≠ none) :
    AttemptEnds (own a h) a.operation o := run.endsAs (obeys_copy hclaim)

/-- Who locks a proposal by a move is a claim, and does so under its token. -/
theorem Run.claim_of_locked {patch : Patch} {lock : Lock} {answer : Outcome Proposal}
    (run : w.Run (.asked a (.store (.transition k .locked patch)) answer :: h))
    (hlock : patch.lock = some lock) :
    a.operation.claimed? ≠ none ∧ .asked a .freshToken lock.token ∈ h ∧
      ∀ x ∈ own a h, x.effect.isTransition = false := by
  have hclaim : a.operation.claimed? ≠ none := fun hnone => ne_locked_of_moves run.permits hnone rfl
  obtain ⟨hstill, token, t, htoken, rfl⟩ := run.copyAsks hclaim k patch rfl
  cases hlock
  exact ⟨hclaim, got_own_iff.1 htoken, hstill⟩

/-- A move that takes no lock is carried out where the lifecycle allows it. -/
theorem Run.moves_of_canBecome {target : TaskState} {patch : Patch} {answer : Outcome Proposal}
    (run : w.Run (.asked a (.store (.transition k target patch)) answer :: h))
    (hp : w.record h a.peer k = some p) (hcan : p.state.canBecome target = true)
    (htarget : target ≠ .locked) :
    Event.moves a.peer k (.asked a (.store (.transition k target patch)) answer) = true := by
  have hmoved : ∃ q, Store.moved p target patch = .ok q := (Store.exists_moved_iff htarget).2 hcan
  obtain ⟨q, hmoved⟩ := hmoved
  obtain rfl : answer = .ok q := Eq.trans run.possible (Store.reply_transition hp hmoved)
  simp [Event.moves, Command.moves?]

/-- **What a claim has locked it has moved on.** Once a claim has ended, no lock of its own is the last
move of its copy. -/
theorem Run.moved_on (run : w.Run (newer ++ .asked b (.store (.insert p)) true :: older))
    (hmade : w.Made newer b p older n k)
    (hended : .ended a o ∈ newer ++ .asked b (.store (.insert p)) true :: older)
    {patch : Patch} {lock : Lock} {answer : Outcome Proposal} (hlock : patch.lock = some lock)
    (htoken : .asked a .freshToken lock.token ∈ newer ++ .asked b (.store (.insert p)) true :: older) :
    lastMove n k newer ≠ some (.asked x (.store (.transition k .locked patch)) answer) := by
  intro hlast
  obtain ⟨hmoves, last, first, rfl, hnone⟩ := lastMove_eq_some_iff.1 hlast
  rw [List.append_assoc, List.cons_append] at run hended htoken
  -- The token says whose lock it is,
  obtain ⟨hclaim, hfresh, hstill⟩ := run.of_append.claim_of_locked hlock
  obtain rfl : x = a := run.freshToken_inj
    (List.mem_append_right _ (List.mem_cons_of_mem _ hfresh)) htoken
  obtain ⟨rfl, hmoved⟩ := of_decide_eq_true hmoves
  obtain e | locked := answer
  · cases hmoved
  obtain ⟨_, -, hlocked, hq⟩ := run.of_append.record_of_transition
  -- and that claim has ended, so it has tried to move its copy on.
  obtain ⟨before, hbefore⟩ := exists_suffix_of_mem hended
  have hends := (run.of_suffix hbefore).attemptEnds hclaim
  rw [← run.own_of_ended hbefore] at hends
  obtain ⟨target, patch', answer, htarget, hgot⟩ := hends.copy k patch locked
    (got_own_iff.2 (List.mem_append_right _ List.mem_cons_self))
  have hne : target ≠ .locked := by
    obtain rfl | rfl := htarget <;> decide
  obtain hmem | hmem := List.mem_append.1 (got_own_iff.1 hgot)
  · -- It did so afterwards, and found the copy as it had left it: that was a later move.
    obtain ⟨latest, between, rfl⟩ := List.append_of_mem hmem
    rw [List.append_assoc, List.cons_append] at run
    have hthere : ∀ later, later <:+ between → ∃ q, w.record (later ++
        .asked x (.store (.transition k .locked patch)) (.ok locked) ::
          (first ++ .asked b (.store (.insert p)) true :: older)) x.peer k = some q := by
      rintro later ⟨rest, rfl⟩
      obtain ⟨q, hq, -⟩ := hmade.since (later ++
        .asked x (.store (.transition k .locked patch)) (.ok locked) :: first)
          ⟨latest ++ .asked x (.store (.transition k target patch')) answer :: rest, by simp⟩
      exact ⟨q, by simpa using hq⟩
    obtain ⟨progress, hkept⟩ := run.of_append.tail.record_unmoved hq hthere
      fun e he => hnone e (by simp [he])
    have hcan : locked.state.canBecome target = true := by
      rw [Store.state_of_moved hlocked]
      obtain rfl | rfl := htarget <;> rfl
    have hmoves := run.of_append.moves_of_canBecome hkept hcan hne
    rw [hnone _ (by simp)] at hmoves
    cases hmoves
  · obtain heq | hmem := List.mem_cons.1 hmem
    · injection heq with _ heffect
      cases heffect
      exact hne rfl
    · cases hstill _ (got_own_iff.2 hmem)

/-! ## The copy after a claim -/

/-- Somebody else than a claim has put what a node keeps under a lock with this token: a lock request
that was granted, or the proposal that came in. -/
inductive LockedByOthers (w : Swarm) (h : List Event) (n : PeerId) (k token : String) : Prop
  | granted {newer older : List Event} {b x : Activity} {p : Proposal} {sender y : PeerId} {t : Int64}
      {g : String} {f : TaskState} : h = newer ++ .asked b (.store (.insert p)) true :: older →
      w.Made newer b p older n k →
      lastMove n k newer = some (.asked x (.store (.lock ⟨k, token, y⟩ t)) (.granted g f)) →
      x.operation = .handle sender (.lock ⟨k, token, y⟩) → LockedByOthers w h n k token
  | sent {newer older : List Event} {b : Activity} {p : Proposal} {sender : PeerId} :
      h = newer ++ .asked b (.store (.insert p)) true :: older → w.Made newer b p older n k →
      lastMove n k newer = none → b.operation = .handle sender (.proposal p) →
      p.state = .locked → p.lockId = some token → LockedByOthers w h n k token

/-- What leaves a lock is a lock request, or a claim that moves its copy. -/
theorem eq_of_lockLeft {c : Command} {lock : Lock} (hlock : c.lockLeft none = some lock) :
    (∃ id patch, c = .transition id .locked patch ∧ patch.lock = some lock) ∨
      ∃ l t, c = .lock l t ∧ l.token = lock.token := by
  cases c with
  | transition id target patch =>
    simp only [Command.lockLeft] at hlock
    split at hlock
    · next htarget =>
      subst htarget
      exact .inl ⟨id, patch, rfl, hlock⟩
    · cases hlock
  | lock l t =>
    cases hlock
    exact .inr ⟨l, t, rfl, rfl⟩
  | _ => cases hlock

/-- After a claim its copy is under its token exactly if others have put it there. -/
theorem Run.locked_iff_of_ended (run : w.Run h) (hended : .ended a o ∈ h)
    (htoken : .asked a .freshToken token ∈ h) (hr : w.record h n k = some r) :
    r.state = .locked ∧ r.lockId = some token ↔ w.LockedByOthers h n k token := by
  constructor
  · intro hlocked
    obtain ⟨newer, b, p, older, rfl, hmade⟩ := run.made hr
    obtain ⟨x, c, answer, lock, hlast, hlock, rfl⟩ | ⟨hlast, hstate, hlockId⟩ :=
      (run.locked_since_iff hmade hr).1 hlocked
    · obtain ⟨hmoves, last, first, heq, -⟩ := lastMove_eq_some_iff.1 hlast
      obtain ⟨-, hmoved⟩ := of_decide_eq_true hmoves
      obtain ⟨id, patch, rfl, hlock⟩ | ⟨⟨id, token, y⟩, t, rfl, htoken'⟩ := eq_of_lockLeft hlock
      · cases answer with
        | error e => cases hmoved
        | ok q =>
          obtain rfl : id = k := Option.some.inj hmoved
          exact absurd hlast (run.moved_on hmade hended hlock htoken)
      · cases answer with
        | denied denial => cases hmoved
        | granted g f =>
          obtain rfl : id = k := Option.some.inj hmoved
          obtain rfl : token = lock.token := htoken'
          have hmem : .asked x (.store (.lock ⟨id, lock.token, y⟩ t)) (.granted g f) ∈
              newer ++ .asked b (.store (.insert p)) true :: older :=
            List.mem_append_left _ (List.mem_of_find?_eq_some hlast)
          obtain ⟨before, hbefore⟩ := exists_suffix_of_mem hmem
          obtain ⟨sender, ho⟩ := (run.of_suffix hbefore).permits
          exact .granted rfl hmade hlast ho
    · have hinserts : Inserts (w.settings b.peer) b.operation (own b older) p := run.of_append.permits
      cases hinserts with
      | create => cases hstate
      | receive ho => exact .sent rfl hmade hlast ho hstate hlockId
  · rintro (⟨rfl, hmade, hlast, -⟩ | ⟨rfl, hmade, hlast, -, hstate, hlockId⟩)
    · exact (run.locked_since_iff hmade hr).2 (.inl ⟨_, _, _, _, hlast, rfl, rfl⟩)
    · exact (run.locked_since_iff hmade hr).2 (.inr ⟨hlast, hstate, hlockId⟩)

/-! ## What a claim comes to -/

/-- A claim comes through: the proposer has said that it is accepted, its copy was moved to ACCEPTED in the
name of its node, and the slot it has taken goes to one job, which runs the task. -/
structure ComesThrough (w : Swarm) (h : List Event) (a : Activity) (p q : Proposal) : Prop where
  looked : .asked a (.store (.get p.id)) (some p) ∈ h
  accepted : GotAcceptance (w.settings a.peer) (own a h) p
  moved : .asked a (.store (.transition p.id .accepted (.ofExecutor a.peer))) (.ok q) ∈ h
  state : q.state = .accepted
  executor : q.acceptedBy = some a.peer
  slot : ∃ r, .asked a (.store (.reserve p.id r)) true ∈ h
  /-- It has handed its slot on, and has let go of a slot in no other way. -/
  handedOn : ∃ older, .asked a (.spawn (.run q)) () :: older <:+ h ∧
    ∀ e answer first, e.isRelease = true → .asked a e answer :: first <:+ h →
      (.asked a e answer :: first : List Event) = .asked a (.spawn (.run q)) () :: older
  /-- Whatever happens later, no more than one job runs the task for it. -/
  one : ∀ later b c, w.Run (later ++ h) → .began b ∈ later ++ h → .began c ∈ later ++ h →
    Continues a b → Continues a c → b ≠ a → c ≠ a → b = c ∧ b.operation = .job (.run q)

/-- A claim falls through: whatever happens later, it holds no slot and nobody runs the task for it; and
what is kept under its token is what others have put there. -/
structure FallsThrough (w : Swarm) (h : List Event) (a : Activity) (k : String) : Prop where
  slot : ∀ later, w.Run (later ++ h) → ¬ Holds (later ++ h) a.peer k a
  idle : ∀ later b, w.Run (later ++ h) → .began b ∈ later ++ h → Continues a b → b = a
  unrun : ∀ later b q answer, w.Run (later ++ h) → Continues a b → .asked b (.execute q) answer ∉ later ++ h
  copy : ∀ token r, .asked a .freshToken token ∈ h → w.record h a.peer k = some r →
    (r.state = .locked ∧ r.lockId = some token ↔ w.LockedByOthers h a.peer k token)

/-- Who hands a slot on hands it to one job. -/
theorem Run.one_runs (run : w.Run h) (ho : a.operation.claimed? = some k)
    (hspawn : .asked a (.spawn (.run q)) () :: older <:+ h) (hbegan : .began b ∈ h) (hcont : Continues a b)
    (hne : b ≠ a) : b.operation = .job (.run q) ∧ b.origin = .spawned a.number (place a older) := by
  have hparent := run.began_of_mem (hspawn.subset List.mem_cons_self)
  obtain rfl | ⟨⟨index, horigin⟩, q', hb⟩ := hcont
  · exact absurd rfl hne
  obtain ⟨-, older', hspawn', horigin'⟩ := run.spawned_by hparent hbegan hb horigin
  cases run.release_once ho rfl rfl hspawn hspawn'
  exact ⟨hb, horigin'⟩

theorem Run.comesThrough (run : w.Run h) (ho : a.operation.claimed? = some k)
    (hrunning : SetRunning (own a h)) : ∃ p q, p.id = k ∧ w.ComesThrough h a p q := by
  obtain ⟨q, hgot⟩ := hrunning
  obtain ⟨older, hspawn⟩ := exists_suffix_of_mem (got_own_iff.1 hgot)
  have holder : older <:+ h := (List.suffix_cons _ _).trans hspawn
  have hspawns : Spawns (w.settings a.peer) a.operation (own a older) (.run q) :=
    (run.of_suffix hspawn).permits
  obtain ⟨hclaimed, r, hreserved⟩ := (run.of_suffix hspawn).handed_on
  cases hspawns with
  | @run p _ hclaiming haccepted hmoved _ =>
  obtain ⟨id, hclaimed', hlooked⟩ := hclaiming.looked
  obtain rfl : k = id := Option.some.inj (ho.symm.trans hclaimed')
  obtain rfl : p.id = k := (run.of_suffix holder).id_of_looked hlooked
  have hid : p.id = q.id := Option.some.inj (ho.symm.trans hclaimed)
  rw [← hid] at hreserved
  rw [w.named] at hmoved
  obtain ⟨first, hmove⟩ := exists_suffix_of_mem (got_own_iff.1 hmoved)
  obtain ⟨_, -, hmove', -⟩ := (run.of_suffix (hmove.trans holder)).record_of_transition
  refine ⟨p, q, rfl, ?_⟩
  exact {
    looked := holder.subset (got_own_iff.1 hlooked)
    accepted := haccepted.mono (own_subset holder)
    moved := holder.subset (got_own_iff.1 hmoved)
    state := Store.state_of_moved hmove'
    executor := Store.acceptedBy_of_moved hmove'
    slot := ⟨r, holder.subset hreserved⟩
    handedOn := ⟨older, hspawn, fun _ _ _ he hfirst => run.release_once ho he rfl hfirst hspawn⟩
    one := by
      intro later b c hrun hb hc hcontb hcontc hneb hnec
      have hspawn' := hspawn.trans (List.suffix_append later h)
      obtain ⟨hob, horigin⟩ := hrun.one_runs ho hspawn' hb hcontb hneb
      obtain ⟨-, horigin'⟩ := hrun.one_runs ho hspawn' hc hcontc hnec
      exact ⟨hrun.origin_inj hb hc (horigin.trans horigin'.symm) (by rw [horigin]; simp), hob⟩ }

theorem Run.fallsThrough (run : w.Run (.ended a o :: h)) (ho : a.operation.claimed? = some k)
    (hnone : NoneRunning (own a h)) : w.FallsThrough (.ended a o :: h) a k := by
  -- Who has ended asks for nothing any more, so it never sets anything running.
  have hown : ∀ {later}, w.Run (later ++ .ended a o :: h) → own a (later ++ .ended a o :: h) = own a h :=
    fun hrun => hrun.own_of_ended (List.suffix_append _ _)
  have hidle : ∀ later b, w.Run (later ++ .ended a o :: h) → .began b ∈ later ++ .ended a o :: h →
      Continues a b → b = a := by
    intro later b hrun hb hcont
    have ha := hrun.began_of_mem (List.mem_append_right later List.mem_cons_self)
    obtain rfl | ⟨q, older, hspawn, -⟩ := hrun.continues_cases ha hb hcont
    · rfl
    · have hgot : Got (own a (later ++ .ended a o :: h)) (.spawn (.run q)) () :=
        got_own_iff.2 (hspawn.subset List.mem_cons_self)
      rw [hown hrun] at hgot
      cases hnone _ hgot
  refine ⟨?slot, hidle, ?unrun, ?copy⟩
  case slot =>
    rintro later hrun ⟨-, -, ⟨r, htaken⟩, hkept⟩
    have htook : Took (own a h) k := ⟨r, hown hrun ▸ got_own_iff.2 htaken⟩
    obtain hfinish | ⟨q, hspawn⟩ := run.slotEnds.claim ho htook
    · rw [← hown hrun] at hfinish
      exact hkept a rfl (Or.inl rfl) (got_own_iff.1 hfinish)
    · cases hnone _ hspawn
  case unrun =>
    intro later b q answer hrun hcont hmem
    obtain rfl := hidle later b hrun (hrun.began_of_mem hmem) hcont
    obtain ⟨before, hbefore⟩ := exists_suffix_of_mem hmem
    obtain ⟨q', hrunning, -⟩ := (hrun.of_suffix hbefore).permits
    rw [hrunning] at ho
    cases ho
  case copy =>
    intro token r htoken hr
    exact run.locked_iff_of_ended List.mem_cons_self htoken hr

/-- **What a claim comes to at its own node.** It comes through and says so, or it falls through and says
so, whatever its requests bring and whatever else is done to what the node keeps. -/
theorem Run.attempt_comes_to (run : w.Run (.ended a o :: h)) (ho : a.operation.claimed? = some k) :
    (∃ p q, p.id = k ∧ w.ComesThrough (.ended a o :: h) a p q ∧
      (a.operation = .attempt k → o = .ok (.bool true))) ∨
    (w.FallsThrough (.ended a o :: h) a k ∧ (a.operation = .attempt k → o = .ok (.bool false))) := by
  have hclaim : a.operation.claimed? ≠ none := by
    rw [ho]
    exact nofun
  obtain ⟨-, ⟨hrunning, htrue⟩ | ⟨hnone, hfalse⟩⟩ := run.attemptEnds hclaim
  · left
    rw [← run.own_of_ended List.suffix_rfl] at hrunning
    obtain ⟨p, q, hid, hcomes⟩ := run.comesThrough ho hrunning
    exact ⟨p, q, hid, hcomes, htrue k⟩
  · exact .inr ⟨run.fallsThrough ho hnone, hfalse k⟩

/-- `p` accepts `a`, and `a` sets the task running. -/
def takenOn : List Turn :=
  lockTold ++ goOn 7 4 ++
    .hear 7 0 (.new .acceptance Acceptance.codec ⟨"t", "a", 0⟩ 0) :: goOn 21 4 ++ .finish 21 ::
    goOn 7 3 ++ [.finish 7]

/-- Whether the claimant says that it has come through. -/
def isSuccess : Event → Bool
  | .ended a (.ok (.bool true)) => isClaimant a
  | _ => false

theorem came_through : ∃ h p q, (among ["p", "a"]).Run (.ended claimant (.ok (.bool true)) :: h) ∧
    claimant.operation.claimed? = some "t" ∧ p.id = "t" ∧
      (among ["p", "a"]).ComesThrough (.ended claimant (.ok (.bool true)) :: h) claimant p q := by
  have run := run_played (w := among ["p", "a"]) takenOn
  have hlast : ((among ["p", "a"]).played takenOn).head?.any isSuccess = true := by decide +kernel
  obtain ⟨event, hhead, hevent⟩ := (Option.any_eq_true _ _).1 hlast
  obtain ⟨h, hplayed⟩ := List.head?_eq_some_iff.1 hhead
  unfold isSuccess at hevent
  split at hevent
  · obtain rfl := eq_claimant hevent
    rw [hplayed] at run
    obtain ⟨p, q, hid, hcomes, -⟩ | ⟨-, hfalse⟩ := run.attempt_comes_to (k := "t") rfl
    · exact ⟨h, p, q, run, rfl, hid, hcomes⟩
    · cases hfalse rfl
  · cases hevent

/-- `a` asks `p` for the lock in vain; meanwhile `y` asks `a` for it, under the same token. -/
def relockedCopy : List Turn :=
  [.outsider "a" "x" (.proposal (.new "t" "p" (echo []) 0)), .go 0 (calm ""), .go 0 (calm ""),
    .user "a" (.attempt "t"), .go 3 (calm ""), .go 3 (calm ""), .go 3 (calm "L"), .go 3 (calm ""),
    .outsider "a" "y" (.lock ⟨"t", "L", "y"⟩), .go 8 (calm ""), .go 8 (calm ""),
    .go 3 (calm ""), .go 3 (calm ""), .finish 3]

/-- The claim of `a` has failed, and its copy is LOCKED under the token of the claim. -/
theorem relocked_copy : ∃ h a r, (among ["a"]).Run h ∧ h.head? = some (.ended a (.ok (.bool false))) ∧
    a.peer = "a" ∧ a.operation = .attempt "t" ∧ .asked a .freshToken "L" ∈ h ∧
      (among ["a"]).record h "a" "t" = some r ∧ r.proposer = "p" ∧ r.state = .locked ∧
        r.lockId = some "L" :=
  ⟨_, _, _, run_played relockedCopy, rfl, rfl, rfl, List.mem_iff_getElem?.2 ⟨7, rfl⟩, rfl, rfl, rfl, rfl⟩

end TaskSwarm.Swarm
