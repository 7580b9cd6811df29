/-
What a claim does about its copy, and what it leaves running.

A claim locks the copy that its node keeps at most once, under the token it was given,
and before it moves the copy in any other way (`CopyAsks`). Whatever it has locked it
tries to move on before it ends, to ACCEPTED or back to PROPOSED, on each of its ways
out (`MovesOn`). And it sets the task running exactly if it comes through
(`AttemptEnds`). What else may have happened to the copy in the meantime is no matter
here: nothing is assumed of any answer.
-/
import TaskSwarm.Proofs.Node.Slots

set_option autoImplicit false

namespace TaskSwarm

/-- Whether an effect tries to move a proposal. -/
def Effect.isTransition : Effect → Bool
  | .store (.transition ..) => true
  | _ => false

/-- Whether an effect sets a task running. -/
def Effect.isRun : Effect → Bool
  | .spawn (.run _) => true
  | _ => false

theorem Effect.isRun_of_spared {e : Effect} (h : e.isSlotWork = false) : e.isRun = false := by
  unfold isRun
  split
  · cases h
  · rfl

namespace Action

variable {α : Type}

/-- The action tries to move nothing. -/
abbrev Still (a : Action α) : Prop := a.Asks fun e => e.isTransition = false

end Action

namespace Node

open TaskSwarm.Action

variable {s : Settings} {past later : List Entry} {p : Proposal} {id token : String}

theorem still_request {α : Type} {peer : PeerId} {kind : MessageKind} {c : Codec α} {payload : α} :
    (request s peer kind c payload).Still :=
  .bind (.perform rfl) fun _ => .bind (.perform rfl) fun _ => asks_ofOutcome

theorem still_requestLock : (requestLock s p token).Still :=
  .bind still_request fun _ => .bind asks_ofOutcome fun _ => .ite asks_throw asks_pure

theorem still_requestAcceptance : (requestAcceptance s p).Still :=
  .bind (.perform rfl) fun _ => .bind still_request fun _ => asks_pure

/-- A lock is given back without fail, and nothing is moved meanwhile. -/
theorem obeys_releaseRemoteLock_of_still {asks : List Entry → Effect → Prop}
    {ends : List Entry → Outcome Unit → Prop}
    (hasks : ∀ past e, e.isTransition = false → asks past e)
    (hends : ∀ later : List Entry, past ⊆ later →
      (∀ x ∈ later, x ∈ past ∨ x.effect.isTransition = false) → ends later (.ok ())) :
    (releaseRemoteLock s p token).Obeys asks ends past := by
  simp only [releaseRemoteLock, obeys_bind, obeys_outcome, obeys_request, then_ok, obeys_pure]
  refine ⟨hasks _ _ rfl, fun t => ⟨hasks _ _ rfl, fun r => ?_⟩⟩
  exact hends _ (fun _ hx => by simp [hx]) (by simp +contextual [Effect.isTransition])

/-- What was moved was moved before, where nothing is moved meanwhile. -/
theorem Moved.of_still {target : TaskState} {patch : Patch} {q : Proposal}
    (h : Moved later id target patch q)
    (hnew : ∀ x ∈ later, x ∈ past ∨ x.effect.isTransition = false) : Moved past id target patch q := by
  obtain hmoved | hstill := hnew _ h
  · exact hmoved
  · cases hstill

/-! ## The copy -/

section

variable (s : Settings) (past : List Entry)

/-- A claim moves nothing before it locks its copy, and locks it under its token. -/
def CopyAsks (e : Effect) : Prop :=
  ∀ id patch, e = .store (.transition id .locked patch) →
    (∀ x ∈ past, x.effect.isTransition = false) ∧
      ∃ token t, Got past .freshToken token ∧ patch = .ofLock ⟨token, s.peer, t⟩

/-- Whatever was locked, it was tried to move it on. -/
def MovesOn : Prop :=
  ∀ id patch q, Moved past id .locked patch q →
    ∃ target patch' r, (target = .proposed ∨ target = .accepted) ∧
      Got past (.store (.transition id target patch')) r

end

theorem copyAsks_of_still {e : Effect} (he : e.isTransition = false) : CopyAsks s past e := by
  rintro id patch rfl
  cases he

theorem copyAsks_of_ne {target : TaskState} {patch : Patch} (htarget : target ≠ .locked) :
    CopyAsks s past (.store (.transition id target patch)) := by
  rintro id' patch' heq
  cases heq
  exact absurd rfl htarget

/-- Who has moved nothing has locked nothing. -/
theorem movesOn_of_still (hpast : ∀ x ∈ past, x.effect.isTransition = false) : MovesOn past := by
  intro id patch q hmoved
  cases hpast _ hmoved

/-- Whatever tries to move nothing leaves nothing behind. -/
theorem MovesOn.adding (h : MovesOn past) (hsub : past ⊆ later)
    (hnew : ∀ x ∈ later, x ∈ past ∨ x.effect.isTransition = false) : MovesOn later := by
  intro id patch q hmoved
  obtain ⟨target, patch', r, htarget, hgot⟩ := h id patch q (hmoved.of_still hnew)
  exact ⟨target, patch', r, htarget, hsub hgot⟩

/-- Nor does a lock that the store refuses. -/
theorem MovesOn.refused {patch : Patch} {e : SwarmError} (h : MovesOn past) :
    MovesOn (⟨.store (.transition id .locked patch), .error e⟩ :: past) := by
  intro id' patch' q hmoved
  obtain heq | hmoved := List.mem_cons.1 hmoved
  · injection heq with heffect hanswer
    cases heffect
    cases hanswer
  · obtain ⟨target, patch'', r, htarget, hgot⟩ := h id' patch' q hmoved
    exact ⟨target, patch'', r, htarget, hgot.cons⟩

/-- Where nothing but one proposal was locked, it is enough to try to move that one on. -/
theorem movesOn_of_one {target : TaskState} {patch : Patch} {r : Outcome Proposal}
    (hone : ∀ id' patch' q, Moved past id' .locked patch' q → id' = id)
    (htarget : target = .proposed ∨ target = .accepted) :
    MovesOn (⟨.store (.transition id target patch), r⟩ :: past) := by
  intro id' patch' q hmoved
  obtain heq | hmoved := List.mem_cons.1 hmoved
  · injection heq with heffect
    cases heffect
    obtain h | h := htarget <;> cases h
  · obtain rfl := hone id' patch' q hmoved
    exact ⟨target, patch, r, htarget, got_head⟩

/-- From the token on: the copy is locked once, and moved on whatever the calls bring. -/
theorem copy_lockAndAccept (hpast : ∀ x ∈ past, x.effect.isTransition = false) :
    (lockAndAccept s p).Obeys (CopyAsks s) (fun later _ => MovesOn later) past := by
  have hstill : ∀ past e, e.isTransition = false → CopyAsks s past e :=
    fun _ _ => copyAsks_of_still
  simp only [lockAndAccept, obeys_bind, obeys_freshToken, then_ok]
  refine ⟨copyAsks_of_still rfl, fun token => ?_⟩
  refine (still_requestLock.obeys hstill).mono ?_
  rintro told answer ⟨hsub, hnew⟩
  have hfirst : ∀ x ∈ (⟨.freshToken, token⟩ :: past : List Entry), x.effect.isTransition = false :=
    List.forall_mem_cons.2 ⟨rfl, hpast⟩
  have htold : ∀ x ∈ told, x.effect.isTransition = false := fun x hx => (hnew x hx).elim (hfirst x) id
  cases answer with
  | error e => exact movesOn_of_still htold
  | ok u =>
  simp only [then_ok, obeys_bind, obeys_now, obeys_outcome, obeys_transition]
  refine ⟨copyAsks_of_still rfl, fun t => ⟨?lock, ?_⟩⟩
  case lock =>
    rintro id patch heq
    cases heq
    exact ⟨List.forall_mem_cons.2 ⟨rfl, htold⟩, token, t, List.mem_cons_of_mem _ (hsub got_head), rfl⟩
  have htold : ∀ x ∈ (⟨.now, t⟩ :: told : List Entry), x.effect.isTransition = false :=
    List.forall_mem_cons.2 ⟨rfl, htold⟩
  rintro (e | locked)
  · -- The copy has moved on by itself, and the lock goes back.
    simp only [obeys_bind]
    refine obeys_releaseRemoteLock_of_still hstill fun later hsub hnew => ?_
    exact (movesOn_of_still htold).refused.adding hsub hnew
  · -- The copy is locked, and nothing else ever was.
    have hone : ∀ id' patch' q, Moved (⟨.store (.transition p.id .locked
        (.ofLock ⟨token, s.peer, t⟩)), .ok locked⟩ :: ⟨.now, t⟩ :: told) id' .locked patch' q →
          id' = p.id := by
      intro id' patch' q hmoved
      obtain heq | hmoved := List.mem_cons.1 hmoved
      · injection heq with heffect
        cases heffect
        rfl
      · cases htold _ hmoved
    simp only [obeys_bind, obeys_outcome]
    refine (still_requestAcceptance.obeys hstill).mono ?_
    rintro asked accepted ⟨-, hnew⟩
    cases accepted with
    | ok u =>
      simp only [then_ok, obeys_transition]
      refine ⟨copyAsks_of_ne (by decide), fun r => movesOn_of_one ?_ (.inr rfl)⟩
      exact fun id' patch' q hmoved => hone id' patch' q (hmoved.of_still hnew)
    | error e =>
      simp only [then_ok, obeys_bind]
      refine obeys_releaseRemoteLock_of_still hstill fun later _ hnew' => ?_
      simp only [then_ok, obeys_bind, obeys_outcome, obeys_transition, obeys_throw]
      refine ⟨copyAsks_of_ne (by decide), fun r => movesOn_of_one ?_ (.inl rfl)⟩
      exact fun id' patch' q hmoved => hone id' patch' q ((hmoved.of_still hnew').of_still hnew)

/-! ## The end of a claim -/

section

variable (past : List Entry)

/-- The task was set running. -/
def SetRunning : Prop := ∃ q, Got past (.spawn (.run q)) ()

/-- Nothing was set running. -/
def NoneRunning : Prop := ∀ x ∈ past, x.effect.isRun = false

/-- A claim has moved on whatever it locked; and it has set the task running and tells its user that it
has the task, or it has set nothing running and tells its user so. -/
structure AttemptEnds (o : Operation) (outcome : Outcome Json) : Prop where
  copy : MovesOn past
  running : (SetRunning past ∧ ∀ id, o = .attempt id → outcome = .ok (.bool true)) ∨
    (NoneRunning past ∧ ∀ id, o = .attempt id → outcome = .ok (.bool false))

end

theorem NoneRunning.adding (h : NoneRunning past)
    (hnew : ∀ x ∈ later, x ∈ past ∨ x.effect.isSlotWork = false) : NoneRunning later := by
  intro x hx
  obtain hx | hspared := hnew x hx
  · exact h x hx
  · exact Effect.isRun_of_spared hspared

theorem ends_lockAndAccept (hpast : ∀ x ∈ past, x.effect.isTransition = false) (hnone : NoneRunning past) :
    (lockAndAccept s p).Obeys (CopyAsks s) (fun later _ => MovesOn later ∧ NoneRunning later) past := by
  have hspares : (lockAndAccept s p).Obeys (fun _ _ => True)
      (fun later _ => past ⊆ later ∧ ∀ x ∈ later, x ∈ past ∨ x.effect.isSlotWork = false) past :=
    ordinary_lockAndAccept.spares.obeys fun _ _ _ => trivial
  refine (((copy_lockAndAccept hpast).and hspares).imp fun _ _ h => h.1).mono ?_
  rintro later r ⟨hcopy, -, hnew⟩
  exact ⟨hcopy, hnone.adding hnew⟩

theorem copy_attempt (hpast : ∀ x ∈ past, x.effect.isTransition = false) (hnone : NoneRunning past) :
    (attempt s id).Obeys (CopyAsks s)
      (fun later r => MovesOn later ∧
        ((SetRunning later ∧ r = .ok true) ∨ (NoneRunning later ∧ r = .ok false))) past := by
  have hlooked : ∀ found : Option Proposal, ∀ x ∈ (⟨.store (.get id), found⟩ :: past : List Entry),
      x.effect.isTransition = false := fun _ => List.forall_mem_cons.2 ⟨rfl, hpast⟩
  have hidle : ∀ found : Option Proposal, NoneRunning (⟨.store (.get id), found⟩ :: past) :=
    fun _ => List.forall_mem_cons.2 ⟨rfl, hnone⟩
  have hpast : ∀ (p : Proposal) (reserved : Bool),
      ∀ x ∈ (⟨.store (.reserve id p.requirements), reserved⟩ ::
        ⟨.store (.get id), some p⟩ :: past : List Entry), x.effect.isTransition = false :=
    fun p reserved => List.forall_mem_cons.2 ⟨rfl, hlooked _⟩
  have hnone : ∀ (p : Proposal) (reserved : Bool),
      NoneRunning (⟨.store (.reserve id p.requirements), reserved⟩ ::
        ⟨.store (.get id), some p⟩ :: past) :=
    fun p reserved => List.forall_mem_cons.2 ⟨rfl, hidle _⟩
  refine obeys_attempt_of (copyAsks_of_still rfl) ⟨movesOn_of_still (hlooked _), .inr ⟨hidle _, rfl⟩⟩
    (fun p => ⟨movesOn_of_still (hlooked _), .inr ⟨hidle _, rfl⟩⟩) (fun p => copyAsks_of_still rfl)
    (fun p => ⟨movesOn_of_still (hpast p _), .inr ⟨hnone p _, rfl⟩⟩)
    fun p => (ends_lockAndAccept (hpast p _) (hnone p _)).mono ?_
  rintro later (e | q) ⟨hcopy, hnone⟩
  · refine ⟨copyAsks_of_still rfl, fun u => ⟨?_, .inr ⟨List.forall_mem_cons.2 ⟨rfl, hnone⟩, rfl⟩⟩⟩
    exact hcopy.adding (List.subset_cons_self _ _) (by simp +contextual [Effect.isTransition])
  · refine ⟨copyAsks_of_still rfl, fun u => ⟨?_, .inl ⟨⟨q, got_head⟩, rfl⟩⟩⟩
    exact hcopy.adding (List.subset_cons_self _ _) (by simp +contextual [Effect.isTransition])

/-- Every claim treats its copy so, and comes to one of these ends. -/
theorem obeys_copy {o : Operation} (ho : o.claimed? ≠ none) :
    (o.program s).Obeys (CopyAsks s) (fun past => AttemptEnds past o) [] := by
  obtain ⟨id, ho⟩ := Option.ne_none_iff_exists'.1 ho
  refine obeys_of_claimed ho (fun _ => copyAsks_of_still rfl) fun past hpast =>
    (copy_attempt ?_ ?_).mono ?_
  · intro x hx
    obtain ⟨delay, heq⟩ := hpast x hx
    rw [heq]
    rfl
  · intro x hx
    obtain ⟨delay, heq⟩ := hpast x hx
    rw [heq]
    rfl
  rintro later r ⟨hcopy, ⟨hrunning, rfl⟩ | ⟨hnone, rfl⟩⟩
  · exact ⟨fun _ => ⟨hcopy, .inl ⟨hrunning, fun _ _ => rfl⟩⟩,
      fun hjob => ⟨hcopy, .inl ⟨hrunning, fun id heq => absurd heq (hjob id)⟩⟩⟩
  · exact ⟨fun _ => ⟨hcopy, .inr ⟨hnone, fun _ _ => rfl⟩⟩,
      fun hjob => ⟨hcopy, .inr ⟨hnone, fun id heq => absurd heq (hjob id)⟩⟩⟩

end Node

end TaskSwarm
