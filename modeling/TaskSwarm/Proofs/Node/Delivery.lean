/-
The order in which a node takes a proposal in.

A delivery is refused for what it holds before anything is asked of anybody. Otherwise the
node reads the clock, has its store keep the proposal unless it is the node's own, and only
where the store has kept it tells so and looks whether to claim it. `DeliveryAsks` and
`DeliveryEnds` follow that order to the letter, with all that was asked before, so that
whoever knows where a delivery stands knows what it has done.
-/
import TaskSwarm.Proofs.Node.Duties

set_option autoImplicit false

namespace TaskSwarm.Node

open TaskSwarm.Action

variable {s : Settings} {o : Operation} {past : List Entry} {sender : PeerId} {p : Proposal}

/-- What a delivery that has taken a proposal in has been told once it has said so. -/
def takenIn (sender : PeerId) (p : Proposal) (t : Int64) : List Entry :=
  [⟨.emit (.proposalReceived p.id sender p), ()⟩, ⟨.store (.insert p), true⟩, ⟨.now, t⟩]

/-- What a delivery asks for that is not refused, by what it was told. -/
inductive DeliveryAsks (s : Settings) (sender : PeerId) (p : Proposal) : List Entry → Effect → Prop
  | time : DeliveryAsks s sender p [] .now
  | keeps {t : Int64} : p.proposer ≠ s.peer → DeliveryAsks s sender p [⟨.now, t⟩] (.store (.insert p))
  | tells {t : Int64} : DeliveryAsks s sender p [⟨.store (.insert p), true⟩, ⟨.now, t⟩]
      (.emit (.proposalReceived p.id sender p))
  | looks {t : Int64} : p.state = .proposed →
      DeliveryAsks s sender p (takenIn sender p t) (.store (.canHandle p.requirements))
  | draws {t : Int64} : p.state = .proposed → DeliveryAsks s sender p
      (⟨.store (.canHandle p.requirements), true⟩ :: takenIn sender p t) (.random s.claimJitter)
  | claimsNow {t : Int64} : p.state = .proposed → DeliveryAsks s sender p
      (⟨.store (.canHandle p.requirements), true⟩ :: takenIn sender p t) (.spawn (.claim p.id 0))
  | claims {t : Int64} {delay : Nat} : p.state = .proposed → DeliveryAsks s sender p
      (⟨.random s.claimJitter, delay⟩ :: ⟨.store (.canHandle p.requirements), true⟩ ::
        takenIn sender p t) (.spawn (.claim p.id delay))

/-- How a delivery is answered that is not refused. -/
def receipt (p : Proposal) (t : Int64) : Json :=
  .object [("proposalId", .str p.id), ("received", .bool true), ("timestamp", Codec.int64.encode t)]

/-- What a delivery comes to, and all it was told by then. -/
inductive DeliveryEnds (s : Settings) (sender : PeerId) (p : Proposal) : List Entry → Outcome Json → Prop
  | refused {e : SwarmError} : p.validateReceived = .error e → DeliveryEnds s sender p [] (.error e)
  | own {t : Int64} : p.validateReceived = .ok () → p.proposer = s.peer →
      DeliveryEnds s sender p [⟨.now, t⟩] (.ok (receipt p t))
  | known {t : Int64} : p.validateReceived = .ok () → p.proposer ≠ s.peer →
      DeliveryEnds s sender p [⟨.store (.insert p), false⟩, ⟨.now, t⟩] (.ok (receipt p t))
  | left {t : Int64} : p.validateReceived = .ok () → p.proposer ≠ s.peer → p.state ≠ .proposed →
      DeliveryEnds s sender p (takenIn sender p t) (.ok (receipt p t))
  | full {t : Int64} : p.validateReceived = .ok () → p.proposer ≠ s.peer → p.state = .proposed →
      DeliveryEnds s sender p (⟨.store (.canHandle p.requirements), false⟩ :: takenIn sender p t)
        (.ok (receipt p t))
  | claimed {t : Int64} {delay : Nat} {between : List Entry} : p.validateReceived = .ok () →
      p.proposer ≠ s.peer → p.state = .proposed →
        DeliveryEnds s sender p (⟨.spawn (.claim p.id delay), ()⟩ :: (between ++
          ⟨.store (.canHandle p.requirements), true⟩ :: takenIn sender p t)) (.ok (receipt p t))

theorem obeys_delivery (ho : o = .handle sender (.proposal p)) :
    (o.program s).Obeys (fun past e => p.validateReceived = .ok () ∧ DeliveryAsks s sender p past e)
      (DeliveryEnds s sender p) [] := by
  subst ho
  show Action.Obeys _ _ _ (Operation.action s (.handle sender (.proposal p)))
  simp only [Operation.action, handle, handleProposal, obeys_bind, obeys_ofOutcome]
  cases hvalid : p.validateReceived with
  | error e => exact .refused hvalid
  | ok _ =>
    simp only [then_ok, obeys_bind, obeys_now, obeys_ite, obeys_pure, true_and]
    refine ⟨.time, fun t => ⟨fun hown => .own hvalid hown, fun hforeign => ?_⟩⟩
    simp only [obeys_bind, obeys_insertProposal, then_ok, obeys_ite, obeys_pure]
    refine ⟨.keeps hforeign, fun kept => ?_⟩
    cases kept with
    | false => exact ⟨fun _ => .known hvalid hforeign, fun hkept => absurd rfl hkept⟩
    | true =>
      simp only [obeys_bind, obeys_emit, obeys_ite, obeys_canHandle, then_ok, scheduleClaim,
        obeys_pure, obeys_random, obeys_spawn]
      refine ⟨fun hnot => absurd hnot (by decide), fun _ => ⟨.tells, fun _ =>
        ⟨fun hopen => ⟨.looks hopen, fun fits => ?_⟩, fun hnot => .left hvalid hforeign hnot⟩⟩⟩
      cases fits with
      | false => exact ⟨fun hfits => absurd hfits (by decide), fun _ => .full hvalid hforeign hopen⟩
      | true =>
        refine ⟨fun _ => ⟨fun _ => ⟨.claimsNow hopen, fun _ => ?_⟩,
          fun _ => ⟨.draws hopen, fun delay => ⟨.claims hopen, fun _ => ?_⟩⟩⟩, fun hnot => absurd rfl hnot⟩
        · exact @DeliveryEnds.claimed s sender p t 0 [] hvalid hforeign hopen
        · exact @DeliveryEnds.claimed s sender p t delay [⟨.random s.claimJitter, delay⟩] hvalid hforeign hopen

end TaskSwarm.Node
