/-
The order in which a node creates a proposal.

A task that cannot be proposed is refused before anything is asked of anybody. Otherwise
the proposal is kept under the id that it was given, every known peer is told, and what
comes next depends on nothing but whether one of them has acknowledged it: then that is
told, and if none has, the proposal is removed again. `Broadcast` is what is known once all
have answered; `CreateAsks` and `CreateEnds` say what comes before and after.
-/
import TaskSwarm.Proofs.Node.Duties

set_option autoImplicit false

namespace TaskSwarm.Node

open TaskSwarm.Action

/-- A proposal that all known peers were told of, and how they have answered. -/
structure Broadcast where
  spec : TaskSpec
  id : String
  time : Int64
  /-- Whether the store has kept the proposal. -/
  kept : Bool
  peers : List PeerId
  sent : Int64
  answers : List (Except CallFault ByteArray)

namespace Broadcast

variable (b : Broadcast) (s : Settings)

def proposal : Proposal := .new b.id s.peer b.spec b.time

def calls : List Call :=
  b.peers.map fun peer => requestCall s peer .proposal Proposal.codec (b.proposal s) b.sent

/-- What the node has been told by when all have answered. -/
def told : List Entry :=
  [⟨.callAll (b.calls s), b.answers⟩, ⟨.now, b.sent⟩, ⟨.knownPeers, b.peers⟩,
    ⟨.store (.insert (b.proposal s)), b.kept⟩, ⟨.now, b.time⟩, ⟨.freshId, b.id⟩]

/-- Some peer has acknowledged the proposal. -/
def IsHeard : Prop := ∃ (i : Nat) (peer : PeerId) (r : Except CallFault ByteArray) (v : Json),
  b.peers[i]? = some peer ∧ b.answers[i]? = some r ∧ readAnswer peer r = .ok v

end Broadcast

variable {s : Settings} {o : Operation} {past : List Entry} {spec : TaskSpec}

theorem Broadcast.isHeard_iff {b : Broadcast} : b.IsHeard ↔
    ∃ (i : Nat) (c : Call) (r : Except CallFault ByteArray) (v : Json),
      (b.calls s)[i]? = some c ∧ b.answers[i]? = some r ∧ readAnswer c.peer r = .ok v := by
  constructor
  · rintro ⟨i, peer, r, v, hpeer, hr, hv⟩
    exact ⟨i, requestCall s peer .proposal Proposal.codec (b.proposal s) b.sent, r, v,
      by simp [Broadcast.calls, hpeer], hr, hv⟩
  · rintro ⟨i, c, r, v, hc, hr, hv⟩
    obtain ⟨peer, hpeer, rfl⟩ := by simpa [Broadcast.calls] using hc
    exact ⟨i, peer, r, v, hpeer, hr, hv⟩

/-- The acknowledgements that are counted are none exactly if no peer has acknowledged the proposal. -/
theorem Broadcast.acks_eq_zero_iff {b : Broadcast} :
    (((b.peers.zip b.answers).map fun x => readAnswer x.1 x.2).filter Except.isOk).length = 0 ↔
      ¬ b.IsHeard := by
  rw [List.length_eq_zero_iff, List.filter_eq_nil_iff]
  constructor
  · rintro hnone ⟨i, peer, r, v, hpeer, hr, hv⟩
    have hmem : (peer, r) ∈ b.peers.zip b.answers :=
      List.mem_of_getElem? (List.getElem?_zip_eq_some.2 ⟨hpeer, hr⟩)
    exact hnone _ (List.mem_map_of_mem hmem) (by rw [hv]; rfl)
  · intro hnot answer hmem hok
    obtain ⟨⟨peer, r⟩, hpair, rfl⟩ := List.mem_map.1 hmem
    obtain ⟨i, hi⟩ := List.mem_iff_getElem?.1 hpair
    obtain ⟨hpeer, hr⟩ := List.getElem?_zip_eq_some.1 hi
    cases hv : readAnswer peer r with
    | ok v => exact hnot ⟨i, peer, r, v, hpeer, hr, hv⟩
    | error e =>
      rw [hv] at hok
      cases hok

/-- What a create asks for, by what it was told. -/
inductive CreateAsks (s : Settings) (spec : TaskSpec) : List Entry → Effect → Prop
  | draws : CreateAsks s spec [] .freshId
  | dates {id : String} : CreateAsks s spec [⟨.freshId, id⟩] .now
  | keeps {id : String} {t : Int64} : CreateAsks s spec [⟨.now, t⟩, ⟨.freshId, id⟩]
      (.store (.insert (.new id s.peer spec t)))
  | lists {id : String} {t : Int64} {kept : Bool} : CreateAsks s spec
      [⟨.store (.insert (.new id s.peer spec t)), kept⟩, ⟨.now, t⟩, ⟨.freshId, id⟩] .knownPeers
  | stamps {id : String} {t : Int64} {kept : Bool} {peers : List PeerId} : CreateAsks s spec
      [⟨.knownPeers, peers⟩, ⟨.store (.insert (.new id s.peer spec t)), kept⟩, ⟨.now, t⟩, ⟨.freshId, id⟩] .now
  | calls {b : Broadcast} : b.spec = spec → CreateAsks s spec (b.told s).tail (.callAll (b.calls s))
  | tells {b : Broadcast} : b.spec = spec → b.IsHeard →
      CreateAsks s spec (b.told s) (.emit (.proposalCreated b.id (b.proposal s)))
  | drops {b : Broadcast} : b.spec = spec → ¬ b.IsHeard →
      CreateAsks s spec (b.told s) (.store (.remove b.id))

theorem CreateAsks.of_emit {event : NodeEvent} (h : CreateAsks s spec past (.emit event)) :
    ∃ b : Broadcast, event = .proposalCreated b.id (b.proposal s) ∧ past = b.told s := by
  cases h with
  | tells => exact ⟨_, rfl, rfl⟩

theorem CreateAsks.of_store {c : Command} (h : CreateAsks s spec past (.store c)) :
    (∃ id t, c = .insert (.new id s.peer spec t) ∧ past = [⟨.now, t⟩, ⟨.freshId, id⟩]) ∨
      ∃ b : Broadcast, c = .remove b.id ∧ past = b.told s := by
  cases h with
  | keeps => exact Or.inl ⟨_, _, rfl, rfl⟩
  | drops => exact Or.inr ⟨_, rfl, rfl⟩

/-- What a create comes to, and all it was told by then. -/
inductive CreateEnds (s : Settings) (spec : TaskSpec) : List Entry → Outcome Json → Prop
  | refused {e : SwarmError} : spec.validate = .error e → CreateEnds s spec [] (.error e)
  | withdrawn {b : Broadcast} {found : Option Proposal} : b.spec = spec → ¬ b.IsHeard →
      CreateEnds s spec (⟨.store (.remove b.id), found⟩ :: b.told s) (.error .broadcastFailed)
  | announced {b : Broadcast} : b.spec = spec → b.IsHeard →
      CreateEnds s spec (⟨.emit (.proposalCreated b.id (b.proposal s)), ()⟩ :: b.told s)
        (.ok (.str b.id))

theorem obeys_creator (ho : o = .create spec) :
    (o.program s).Obeys (CreateAsks s spec) (CreateEnds s spec) [] := by
  subst ho
  show Action.Obeys _ _ _ (Operation.action s (.create spec))
  simp only [Operation.action, create, obeys_map, obeys_bind, obeys_ofOutcome]
  cases hvalid : spec.validate with
  | error e => exact .refused hvalid
  | ok _ =>
    simp only [then_ok, obeys_bind, obeys_freshId, obeys_now, obeys_insertProposal, obeys_outcome,
      broadcast, requestAll, obeys_knownPeers, obeys_callAll, obeys_pure]
    refine ⟨.draws, fun id => ⟨.dates, fun t => ⟨.keeps, fun kept => ⟨.lists, fun peers =>
      ⟨.stamps, fun sent => ⟨@CreateAsks.calls s spec ⟨spec, id, t, kept, peers, sent, []⟩ rfl,
        fun answers => ?_⟩⟩⟩⟩⟩⟩
    -- Whether anybody has acknowledged the proposal is seen from the number of those who have.
    let b : Broadcast := ⟨spec, id, t, kept, peers, sent, answers⟩
    have hheard := @Broadcast.acks_eq_zero_iff b
    refine Action.obeys_ite.2 ⟨fun hnone => ?_, fun hsome => ?_⟩
    · simp only [obeys_throw, then_error, then_ok, obeys_bind, obeys_removeProposal]
      refine ⟨@CreateAsks.drops s spec b rfl (hheard.1 hnone), fun found => ?_⟩
      exact @CreateEnds.withdrawn s spec b found rfl (hheard.1 hnone)
    · simp only [obeys_pure, then_ok, obeys_bind, obeys_emit]
      have hheard := Classical.not_not.1 fun hnot => hsome (hheard.2 hnot)
      refine ⟨@CreateAsks.tells s spec b rfl hheard, fun _ => ?_⟩
      exact @CreateEnds.announced s spec b rfl hheard

end TaskSwarm.Node
