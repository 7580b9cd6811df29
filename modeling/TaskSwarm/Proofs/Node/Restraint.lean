/-
Actions that ask for effects of one kind alone.

What an operation does about slots or about events it does at a few places. All that
comes between is ordinary: requests to peers, looks at what the node keeps, moves,
files. `Asks` says of an action that whatever it is answered it asks for nothing but
effects of some kind, and has one rule for each way of building an action; the pieces
of which operations are made are ordinary (`Ordinary`) by these rules.
-/
import TaskSwarm.Proofs.Node.Duties

set_option autoImplicit false

namespace TaskSwarm

/-- Whether an effect neither touches a slot nor tells an event. -/
def Effect.isOrdinary : Effect → Bool
  | .store (.reserve _ _) | .store (.finish _) | .store (.remove _) | .spawn (.run _) | .emit _ => false
  | _ => true

namespace Action

variable {α β : Type} {P Q : Effect → Prop} {past : List Entry}

/-- Whatever it is answered, the action asks for nothing but effects of some kind. -/
def Asks (P : Effect → Prop) (a : Action α) : Prop :=
  ∀ past, a.Obeys (fun _ e => P e) (fun _ _ => True) past

theorem Asks.bind {a : Action α} {f : α → Action β} (ha : a.Asks P) (hf : ∀ x, (f x).Asks P) :
    (a >>= f).Asks P := by
  intro past
  refine obeys_bind.2 ((ha past).mono fun later o _ => ?_)
  cases o with
  | ok x => exact hf x later
  | error e => trivial

theorem Asks.perform {e : Effect} (he : P e) : (perform e).Asks P := by
  intro past
  show Program.Obeys _ _ _ (Program.ask e _)
  exact ⟨he, fun _ => trivial⟩

theorem asks_pure {a : α} : (pure a : Action α).Asks P := fun _ => trivial

theorem asks_throw {e : SwarmError} : (throw e : Action α).Asks P := fun _ => trivial

theorem asks_ofOutcome {o : Outcome α} : (ofOutcome o).Asks P := fun _ => trivial

theorem Asks.outcome {a : Action α} (ha : a.Asks P) : (Action.outcome a).Asks P :=
  fun past => obeys_outcome.2 ((ha past).mono fun _ _ _ => trivial)

theorem Asks.map {a : Action α} {f : α → β} (ha : a.Asks P) : (f <$> a).Asks P :=
  fun past => obeys_map.2 ((ha past).mono fun _ _ _ => trivial)

theorem Asks.ite {c : Prop} [Decidable c] {a b : Action α} (ha : a.Asks P) (hb : b.Asks P) :
    (if c then a else b).Asks P := by
  split
  · exact ha
  · exact hb

theorem Asks.imp {a : Action α} (ha : a.Asks P) (himp : ∀ e, P e → Q e) : a.Asks Q :=
  fun past => (ha past).imp fun _ e => himp e

/-- After an action of one kind, whatever is of another kind was asked for before. -/
theorem Asks.obeys {a : Action α} {asks : List Entry → Effect → Prop} (ha : a.Asks P)
    (hasks : ∀ past e, P e → asks past e) :
    a.Obeys asks (fun later _ => past ⊆ later ∧ ∀ x ∈ later, x ∈ past ∨ P x.effect) past := by
  refine ((ha past).adding.imp hasks).keeping.mono ?_
  rintro later o ⟨hsub, hnew, -⟩
  exact ⟨hsub, hnew⟩

/-- The action neither touches a slot nor tells an event. -/
def Ordinary (a : Action α) : Prop := a.Asks fun e => e.isOrdinary = true

end Action

namespace Node

open TaskSwarm.Action

variable {s : Settings} {id : String} {p : Proposal} {peer : PeerId}

section

variable {α : Type} {kind : MessageKind} {c : Codec α} {payload : α}

theorem ordinary_request : (request s peer kind c payload).Ordinary :=
  .bind (.perform rfl) fun _ => .bind (.perform rfl) fun _ => asks_ofOutcome

theorem ordinary_requestAll : (requestAll s kind c payload).Ordinary :=
  .bind (.perform rfl) fun _ => .bind (.perform rfl) fun _ => .bind (.perform rfl) fun _ => asks_pure

end

theorem ordinary_requireProposal : (requireProposal id).Ordinary := by
  refine .bind (.perform rfl) fun found => ?_
  cases found with
  | some p => exact asks_pure
  | none => exact asks_throw

theorem ordinary_transition {target : TaskState} {patch : Patch} :
    (transition id target patch).Ordinary :=
  .bind (.perform rfl) fun _ => asks_ofOutcome

theorem ordinary_setProgress {progress : Option Json} : (setProgress id progress).Ordinary :=
  .bind (.perform rfl) fun _ => asks_ofOutcome

theorem ordinary_streamFiles {paths : List String} : (streamFiles s peer id paths).Ordinary :=
  fun _ => (obeys_streamFiles (fun _ _ => rfl) fun _ _ => rfl).mono fun _ _ _ => trivial

theorem ordinary_scheduleClaim : (scheduleClaim s id).Ordinary := by
  intro past
  simp [scheduleClaim, Effect.isOrdinary]

/-- A status is told without fail, and nothing but ordinary effects asked for. -/
theorem obeys_sendStatus_of_ordinary {asks : List Entry → Effect → Prop} {status : TaskState}
    {progress : Option Json} {ends : List Entry → Outcome Unit → Prop} {past : List Entry}
    (hasks : ∀ past e, e.isOrdinary = true → asks past e)
    (hends : ∀ later : List Entry, past ⊆ later →
      (∀ x ∈ later, x ∈ past ∨ x.effect.isOrdinary = true) → ends later (.ok ())) :
    (sendStatus s p status progress).Obeys asks ends past := by
  simp only [sendStatus, obeys_bind, obeys_outcome, obeys_now, obeys_request, then_ok, obeys_pure]
  refine ⟨hasks _ _ rfl, fun t => ⟨hasks _ _ rfl, fun t' => ⟨hasks _ _ rfl, fun r => ?_⟩⟩⟩
  exact hends _ (fun _ hx => by simp [hx]) (by simp +contextual [Effect.isOrdinary])

theorem ordinary_releaseRemoteLock {token : String} : (releaseRemoteLock s p token).Ordinary :=
  .bind ordinary_request.outcome fun _ => asks_pure

theorem ordinary_lockAndAccept : (lockAndAccept s p).Ordinary := by
  refine .bind (.perform rfl) fun token => .bind ?_ fun _ => .bind (.perform rfl) fun t => ?_
  · refine .bind ordinary_request fun value => .bind asks_ofOutcome fun a => ?_
    exact .ite asks_throw asks_pure
  refine .bind ordinary_transition.outcome fun locked => ?_
  cases locked with
  | error e => exact .bind ordinary_releaseRemoteLock fun _ => asks_throw
  | ok q =>
  refine .bind ?_ fun accepted => ?_
  · refine Asks.outcome (.bind (.perform rfl) fun t => ?_)
    exact .bind ordinary_request fun _ => asks_pure
  cases accepted with
  | ok u => exact ordinary_transition
  | error e =>
    refine .bind ordinary_releaseRemoteLock fun _ => ?_
    exact .bind ordinary_transition.outcome fun _ => asks_throw

theorem ordinary_broadcast : (broadcast s p).Ordinary :=
  .bind ordinary_requestAll fun _ => .ite asks_throw asks_pure

end Node

end TaskSwarm
