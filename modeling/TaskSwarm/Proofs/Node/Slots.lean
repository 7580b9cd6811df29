/-
Who has to do with slots.

Three kinds of operation do. A claim takes a slot for the proposal it has looked up,
and once it has it, it gives it back or hands it on to the job that runs the task,
whichever of its calls fails. That job gives it back, once, when it is through. And who
creates a proposal removes it again at most once, which frees its slot if it has one.
`SlotAsks` says so for each effect and `SlotEnds` for the end of an operation; nothing
else an operation asks for touches a slot (`Spares`).
-/
import TaskSwarm.Proofs.Node.Restraint

set_option autoImplicit false

namespace TaskSwarm

/-- Whether an effect frees a slot or hands one on. -/
def Effect.isRelease : Effect → Bool
  | .store (.finish _) | .store (.remove _) | .spawn (.run _) => true
  | _ => false

/-- Whether an effect has to do with slots: it takes one, frees one or hands one on. -/
def Effect.isSlotWork : Effect → Bool
  | .store (.reserve _ _) | .store (.finish _) | .store (.remove _) | .spawn (.run _) => true
  | _ => false

theorem Effect.isSlotWork_of_isRelease {e : Effect} (h : e.isRelease = true) : e.isSlotWork = true := by
  unfold isRelease at h
  split at h
  · rfl
  · rfl
  · rfl
  · cases h

theorem Effect.isRelease_of_spared {e : Effect} (h : e.isSlotWork = false) : e.isRelease = false := by
  rw [← Bool.not_eq_true] at h ⊢
  exact fun hrelease => h (isSlotWork_of_isRelease hrelease)

theorem Effect.spared_of_isOrdinary {e : Effect} (h : e.isOrdinary = true) : e.isSlotWork = false := by
  unfold isSlotWork
  split
  all_goals first | rfl | cases h

namespace Action

variable {α : Type}

/-- The action asks for nothing that touches a slot. -/
abbrev Spares (a : Action α) : Prop := a.Asks fun e => e.isSlotWork = false

theorem Ordinary.spares {a : Action α} (ha : a.Ordinary) : a.Spares :=
  Asks.imp ha fun _ => Effect.spared_of_isOrdinary

/-- Where no slot had been touched, and whatever is new touches none, none has been. -/
theorem spared_of_new {past later : List Entry}
    (hnew : ∀ x ∈ later, x ∈ past ∨ x.effect.isSlotWork = false)
    (hpast : ∀ x ∈ past, x.effect.isSlotWork = false) : ∀ x ∈ later, x.effect.isSlotWork = false :=
  fun x hx => (hnew x hx).elim (hpast x) id

end Action

namespace Node

open TaskSwarm.Action

variable {s : Settings} {id : String} {p : Proposal} {sender : PeerId} {past : List Entry}

/-! ## Requests, and what its user asks of a node -/

theorem spares_handle {m : Inbound} : (handle s sender m).Spares := by
  cases m with
  | proposal p =>
    refine .bind asks_ofOutcome fun _ => .bind (.perform rfl) fun t => .ite asks_pure ?_
    refine .bind (.perform rfl) fun kept => .ite asks_pure (.bind (.perform rfl) fun _ => ?_)
    refine .ite (.bind (.perform rfl) fun fits => .ite ?_ asks_pure) asks_pure
    exact .bind ordinary_scheduleClaim.spares fun _ => asks_pure
  | acceptance x =>
    refine .bind ordinary_requireProposal.spares fun p => .ite asks_throw (.ite asks_throw ?_)
    refine .bind ordinary_streamFiles.spares.outcome fun sent => ?_
    cases sent with
    | ok u =>
      refine .bind ordinary_transition.spares fun _ => .bind (.perform rfl) fun _ => ?_
      exact .bind (.perform rfl) fun _ => asks_pure
    | error e => exact .bind ordinary_transition.spares.outcome fun _ => asks_throw
  | status u =>
    refine .bind ordinary_requireProposal.spares fun p => .bind asks_ofOutcome fun _ => ?_
    -- However it goes on, it tells of the status and answers.
    have hrest : (do
        emit (.taskStatusUpdated u.taskId u.status u.progress)
        return (Json.object [("taskId", .str u.taskId), ("received", .bool true)]) :
          Action Json).Spares := .bind (.perform rfl) fun _ => asks_pure
    refine .ite (.bind ordinary_transition.spares fun _ => .ite ?_ hrest) ?_
    · exact .bind (.perform rfl) fun _ => hrest
    · exact .bind ordinary_setProgress.spares fun _ => hrest
  | lock r =>
    refine .bind (.bind (.perform rfl) fun t => ?_) fun a => asks_pure
    exact .bind (.perform rfl) fun d => asks_pure
  | unlock u =>
    refine .bind (.bind (.perform rfl) fun r => ?_) fun a => asks_pure
    split
    · exact asks_pure
    · exact asks_pure
    · exact asks_throw
  | result x =>
    refine .bind ordinary_requireProposal.spares fun p => .bind asks_ofOutcome fun _ => ?_
    exact .bind ordinary_transition.spares fun _ => .bind (.perform rfl) fun _ => asks_pure
  | cancellation c =>
    refine .bind (.perform rfl) fun found => ?_
    cases found with
    | none => exact asks_pure
    | some p =>
      refine .ite asks_throw (.ite (.bind ordinary_transition.spares fun _ => ?_) asks_pure)
      exact .bind (.perform rfl) fun _ => asks_pure

theorem spares_cancel : (cancel s id).Spares := by
  refine .bind ordinary_requireProposal.spares fun p => .ite asks_pure ?_
  refine .bind ordinary_transition.spares.outcome fun moved => ?_
  split
  · refine .bind (.perform rfl) fun _ => .ite ?_ asks_pure
    refine .bind ?_ fun _ => asks_pure
    exact .bind (.perform rfl) fun _ => ordinary_requestAll.spares
  · exact asks_pure
  · exact asks_throw

/-! ## What the others do between their slot work -/

theorem obeys_failTask_of_spared {asks : List Entry → Effect → Prop} {text : String}
    {ends : List Entry → Outcome Unit → Prop} (hasks : ∀ past e, e.isSlotWork = false → asks past e)
    (hends : ∀ later : List Entry, (∀ x ∈ later, x ∈ past ∨ x.effect.isSlotWork = false) →
      ends later (.ok ())) :
    (failTask s p text).Obeys asks ends past := by
  simp only [failTask, obeys_bind, obeys_outcome, obeys_transition, then_ok, obeys_emit]
  refine ⟨hasks _ _ rfl, fun r => ⟨hasks _ _ rfl, fun _ => ?_⟩⟩
  refine obeys_sendStatus_of_ordinary (fun past e he => hasks past e (Effect.spared_of_isOrdinary he))
    fun later _ hnew => hends later fun x hx => ?_
  obtain hx | hx := hnew x hx
  · obtain rfl | rfl | hx : x = _ ∨ x = _ ∨ x ∈ past := by simpa using hx
    · exact Or.inr rfl
    · exact Or.inr rfl
    · exact Or.inl hx
  · exact Or.inr (Effect.spared_of_isOrdinary hx)

theorem spares_failTask {text : String} : (failTask s p text).Spares :=
  fun _ => obeys_failTask_of_spared (fun _ _ he => he) fun _ _ => trivial

theorem spares_completeTask {v : Json} : (completeTask s id v).Spares := by
  refine .bind ordinary_requireProposal.spares fun p => .bind (.perform rfl) fun t => ?_
  refine .bind ordinary_request.spares.outcome fun sent => ?_
  cases sent with
  | ok _ => exact .bind ordinary_transition.spares fun _ => .perform rfl
  | error e => exact .bind spares_failTask fun _ => asks_throw

/-! ## Slot work -/

section

variable (o : Operation) (past : List Entry)

/-- The operation has taken a slot for a task. -/
def Took (id : String) : Prop := ∃ r, Got past (.store (.reserve id r)) true

/-- What an operation asks for that touches a slot, given what it has asked for before: all of it is
once and in this order. -/
inductive SlotAsks : Effect → Prop
  /-- A claim takes a slot for the proposal it found. -/
  | take {id : String} {p : Proposal} : o.claimed? = some id → Looked past id p →
      (∀ x ∈ past, x.effect.isSlotWork = false) → SlotAsks (.store (.reserve id p.requirements))
  /-- A claim that failed gives the slot back. -/
  | giveBack {id : String} : o.claimed? = some id → Took past id →
      (∀ x ∈ past, x.effect.isRelease = false) → SlotAsks (.store (.finish id))
  /-- A claim that came through hands the slot on. -/
  | handOn {id : String} {q : Proposal} : o.claimed? = some id → Took past id →
      (∀ x ∈ past, x.effect.isRelease = false) → SlotAsks (.spawn (.run q))
  /-- Who runs a task gives the slot back. -/
  | finish {p : Proposal} : o = .job (.run p) → (∀ x ∈ past, x.effect.isSlotWork = false) →
      SlotAsks (.store (.finish p.id))
  /-- Who created a proposal removes it. -/
  | drop {spec : TaskSpec} {id : String} : o = .create spec →
      (∀ x ∈ past, x.effect.isSlotWork = false) → SlotAsks (.store (.remove id))

/-- Who has a slot in the end has given it back, or handed it on. -/
structure SlotEnds : Prop where
  claim : ∀ {id}, o.claimed? = some id → Took past id →
    Got past (.store (.finish id)) () ∨ ∃ q, Got past (.spawn (.run q)) ()
  run : ∀ {p}, o = .job (.run p) → Got past (.store (.finish p.id)) ()

end

variable {o : Operation}

/-- A claim that gives its slot back or hands it on has done neither before. -/
theorem SlotAsks.none_released {past : List Entry} {e : Effect} (hasks : SlotAsks o past e)
    (ho : o.claimed? = some id) (he : e.isRelease = true) :
    ∀ x ∈ past, x.effect.isRelease = false := by
  cases hasks with
  | take => cases he
  | giveBack _ _ hnone => exact hnone
  | handOn _ _ hnone => exact hnone
  | finish ho' =>
    rw [ho'] at ho
    cases ho
  | drop ho' =>
    rw [ho'] at ho
    cases ho

theorem slotAsks_of_spared {past : List Entry} {e : Effect} (h : e.isSlotWork = false) :
    e.isSlotWork = true → SlotAsks o past e := by
  intro hwork
  rw [h] at hwork
  cases hwork

theorem slots_attempt (ho : o.claimed? = some id) (hpast : ∀ x ∈ past, x.effect.isSlotWork = false) :
    (attempt s id).Obeys (fun past e => e.isSlotWork = true → SlotAsks o past e)
      (fun later _ => Took later id →
        Got later (.store (.finish id)) () ∨ ∃ q, Got later (.spawn (.run q)) ()) past := by
  -- Nobody who has touched no slot has taken one.
  have hnone : ∀ {later : List Entry}, (∀ x ∈ later, x.effect.isSlotWork = false) →
      ¬ Took later id := by
    rintro later hlater ⟨r, hgot⟩
    cases hlater _ hgot
  have hlooked : ∀ {found : Option Proposal}, ∀ x ∈ (⟨.store (.get id), found⟩ :: past : List Entry),
      x.effect.isSlotWork = false := by
    simpa [Effect.isSlotWork] using hpast
  refine obeys_attempt_of (slotAsks_of_spared rfl) (fun htook => absurd htook (hnone hlooked))
    (fun p htook => absurd htook (hnone hlooked)) (fun p _ => .take ho got_head hlooked)
    (fun p htook => ?_) fun p => ?_
  · obtain ⟨r, hgot⟩ := htook
    obtain heq | hgot := List.mem_cons.1 hgot
    · cases heq
    · exact absurd ⟨r, hgot⟩ (hnone hlooked)
  refine (ordinary_lockAndAccept.spares.obeys fun _ _ => slotAsks_of_spared).mono ?_
  rintro later r ⟨hsub, hnew⟩
  have htook : Took later id := ⟨_, hsub got_head⟩
  have hkept : ∀ x ∈ later, x.effect.isRelease = false := by
    intro x hx
    obtain hx | hspared := hnew x hx
    · obtain rfl | hx := List.mem_cons.1 hx
      · rfl
      · exact Effect.isRelease_of_spared (hlooked x hx)
    · exact Effect.isRelease_of_spared hspared
  cases r with
  | error e => exact ⟨fun _ => .giveBack ho htook hkept, fun _ _ => .inl got_head⟩
  | ok q => exact ⟨fun _ => .handOn ho htook hkept, fun _ _ => .inr ⟨q, got_head⟩⟩

theorem slots_startTask :
    (startTask s p).Obeys (fun past e => e.isSlotWork = true → SlotAsks (.job (.run p)) past e)
      (fun later _ => Got later (.store (.finish p.id)) ()) [] := by
  simp only [startTask, obeys_bind, obeys_outcome, obeys_transition, then_ok]
  refine ⟨slotAsks_of_spared rfl, ?_⟩
  rintro (e | q)
  · simp only [obeys_bind, obeys_releaseSlot, then_ok, obeys_throw]
    exact ⟨fun _ => .finish rfl (by simp [Effect.isSlotWork]), fun _ => got_head⟩
  have hasks : ∀ past e, e.isSlotWork = false →
      e.isSlotWork = true → SlotAsks (.job (.run p)) past e := fun _ _ => slotAsks_of_spared
  simp only [obeys_bind, obeys_emit, then_ok]
  refine ⟨slotAsks_of_spared rfl, fun _ => obeys_sendStatus_of_ordinary
    (fun past e he => hasks past e (Effect.spared_of_isOrdinary he)) fun told _ htold => ?_⟩
  simp only [then_ok, obeys_bind, obeys_execute]
  refine ⟨slotAsks_of_spared rfl, fun result => ?_⟩
  have hran : ∀ x ∈ (⟨.execute q, result⟩ :: told : List Entry), x.effect.isSlotWork = false :=
    List.forall_mem_cons.2 ⟨rfl, spared_of_new
      (fun x hx => (htold x hx).imp_right Effect.spared_of_isOrdinary) (by simp [Effect.isSlotWork])⟩
  cases result with
  | error e =>
    simp only [obeys_bind]
    refine obeys_failTask_of_spared hasks fun later hnew => ?_
    simp only [then_ok, obeys_pure, obeys_bind, obeys_releaseSlot, obeys_ofOutcome]
    exact ⟨fun _ => .finish rfl (spared_of_new hnew hran), fun _ => got_head⟩
  | ok v =>
    simp only [obeys_bind, obeys_outcome]
    refine (spares_completeTask.obeys hasks).mono ?_
    rintro later r ⟨-, hnew⟩
    simp only [then_ok, obeys_bind, obeys_releaseSlot, obeys_ofOutcome]
    exact ⟨fun _ => .finish rfl (spared_of_new hnew hran), fun _ => got_head⟩

theorem slots_create {spec : TaskSpec} :
    (create s spec).Obeys (fun past e => e.isSlotWork = true → SlotAsks (.create spec) past e)
      (fun _ _ => True) [] := by
  simp only [create, obeys_bind, obeys_ofOutcome]
  cases spec.validate with
  | error e => trivial
  | ok _ =>
  simp only [then_ok, obeys_bind, obeys_freshId, obeys_now, obeys_insertProposal, obeys_outcome]
  refine ⟨slotAsks_of_spared rfl, fun id => ⟨slotAsks_of_spared rfl, fun t =>
    ⟨slotAsks_of_spared rfl, fun kept => ?_⟩⟩⟩
  refine (ordinary_broadcast.spares.obeys fun _ _ => slotAsks_of_spared).mono ?_
  rintro later r ⟨-, hnew⟩
  have hlater : ∀ x ∈ later, x.effect.isSlotWork = false :=
    spared_of_new hnew (by simp [Effect.isSlotWork])
  cases r with
  | error e =>
    simp only [then_ok, obeys_bind, obeys_removeProposal, obeys_throw]
    exact ⟨fun _ => .drop rfl hlater, fun _ => trivial⟩
  | ok acks =>
    simp only [then_ok, obeys_bind, obeys_emit, obeys_pure]
    exact ⟨slotAsks_of_spared rfl, fun _ => trivial⟩

/-- Whoever neither claims nor runs a task may end in any way. -/
theorem slotEnds_of_spared (hclaimed : o.claimed? = none)
    (hrun : ∀ p, o ≠ .job (.run p)) : SlotEnds o past :=
  ⟨fun ho => absurd (hclaimed.symm.trans ho) (by simp), fun ho => absurd ho (hrun _)⟩

theorem slotEnds_of_claimed (ho : o.claimed? = some id) (hends : Took past id →
    Got past (.store (.finish id)) () ∨ ∃ q, Got past (.spawn (.run q)) ()) : SlotEnds o past := by
  refine ⟨fun ho' => ?_, fun ho' => ?_⟩
  · cases ho.symm.trans ho'
    exact hends
  · rw [ho'] at ho
    cases ho

/-- Every operation touches slots as it may. -/
theorem obeys_slots (s : Settings) (o : Operation) :
    (o.program s).Obeys (fun past e => e.isSlotWork = true → SlotAsks o past e)
      (fun past _ => SlotEnds o past) [] := by
  -- What never touches a slot may end in any way.
  have hspared : ∀ {a : Action Json}, a.Spares → o.claimed? = none → (∀ p, o ≠ .job (.run p)) →
      a.Obeys (fun past e => e.isSlotWork = true → SlotAsks o past e)
        (fun past _ => SlotEnds o past) [] := by
    intro a ha hclaimed hrun
    exact (ha.obeys fun _ _ => slotAsks_of_spared).mono fun _ _ _ => slotEnds_of_spared hclaimed hrun
  cases o with
  | create spec =>
    exact obeys_map.2 (slots_create.mono fun _ _ _ => slotEnds_of_spared rfl (by simp))
  | cancel id => exact hspared spares_cancel.map rfl (by simp)
  | attempt id =>
    exact obeys_map.2 ((slots_attempt rfl (by simp)).mono fun _ _ => slotEnds_of_claimed rfl)
  | query c h =>
    refine hspared (.map (.perform ?_)) rfl (by simp)
    cases c with
    | get | list | capabilities | updateCapabilities | canHandle | activeTasks => rfl
    | insert | remove | transition | setProgress | lock | unlock | reserve | finish => cases h
  | job j =>
    cases j with
    | claim id delay =>
      refine obeys_claimJob.2 ⟨slotAsks_of_spared rfl, fun u => ?_⟩
      have hslept : ∀ x ∈ ([⟨.sleep delay, u⟩] : List Entry), x.effect.isSlotWork = false := by
        simp [Effect.isSlotWork]
      exact (slots_attempt rfl hslept).mono fun _ _ => slotEnds_of_claimed rfl
    | run p =>
      refine obeys_runJob.2 (slots_startTask.mono fun later r hends => ?_)
      refine ⟨by simp [Operation.claimed?], ?_⟩
      rintro p' ⟨⟩
      exact hends
  | handle sender m => exact hspared spares_handle rfl (by simp)

end Node

end TaskSwarm
