/-
What a node says to another one.

`Sends` goes through the calls that an operation may make, and says what each of
them asks of the node that takes it in: who asks, about which proposal, and what
the operation was told before. A request of a member is one of these, whatever
else the bytes of it may hold (`sends_of_permits`).
-/
import TaskSwarm.Proofs.Message.Heard
import TaskSwarm.Proofs.Node.Duties

set_option autoImplicit false

namespace TaskSwarm.Node

variable {s : Settings} {o : Operation} {past : List Entry} {peer : PeerId} {m : Inbound}

/-- The requests that an operation makes of a peer, as they are heard. -/
inductive Sends (s : Settings) (o : Operation) (past : List Entry) (peer : PeerId) : Inbound → Prop
  | proposal {spec : TaskSpec} {p q : Proposal} {kept : Bool} : o = .create spec →
      Got past (.store (.insert p)) kept → q.id = p.id → q.proposer = p.proposer →
      (p.state = .proposed → q.state = .proposed) → Sends s o past peer (.proposal q)
  | cancellation {id : String} {p q : Proposal} {c : Cancellation} : o = .cancel id →
      Looked past id p → p.proposer = s.peer → Moved past id .cancelled .none q →
      c.proposalId = id → Sends s o past peer (.cancellation c)
  | lock {id : String} {p : Proposal} {token : String} : o.claimed? = some id → Looked past id p →
      p.proposer = peer → Sends s o past peer (.lock ⟨p.id, token, s.peer⟩)
  | unlock {id : String} {p : Proposal} {token : String} : o.claimed? = some id →
      Looked past id p → p.proposer = peer → Sends s o past peer (.unlock ⟨p.id, token⟩)
  | acceptance {p : Proposal} {x : Acceptance} : Claiming s o past p → p.proposer = peer →
      x.proposalId = p.id → x.acceptedBy = s.peer → Sends s o past peer (.acceptance x)
  | status {p q : Proposal} {u : StatusUpdate} : o = .job (.run p) →
      Moved past p.id .running .none q ∨ Looked past p.id q → q.proposer = peer → u.taskId = q.id →
      u.status = .running ∨ u.status = .failed → Sends s o past peer (.status u)
  | result {p q : Proposal} {v : Json} {x : TaskResult} : o = .job (.run p) → Ran past p.id v →
      Looked past p.id q → q.proposer = peer → x.proposalId = p.id → v.Carried x.result →
      Sends s o past peer (.result x)

/-- A call of an operation that may make it asks for what the operation sends. -/
theorem sends_of_calls {c : Call} (hcalls : Calls s o past c) {kind : MessageKind}
    (hm : Inbound.ofBytes kind c.bytes = .ok m) : Sends s o past c.peer m := by
  cases hcalls with
  | lock ho hlooked =>
    rw [Inbound.of_lock hm]
    exact .lock ho hlooked rfl
  | unlock ho hlooked =>
    rw [Inbound.of_unlock hm]
    exact .unlock ho hlooked rfl
  | acceptance hclaiming =>
    obtain ⟨x, rfl, hid, hpeer⟩ := Inbound.of_acceptance hm
    exact .acceptance hclaiming rfl hid hpeer
  | status ho hq hstate =>
    obtain ⟨u, rfl, hid, hstatus⟩ := Inbound.of_status hm
    exact .status ho hq rfl hid (hstatus ▸ hstate)
  | result ho hran hlooked =>
    obtain ⟨x, rfl, hid, hcarried⟩ := Inbound.of_result hm
    exact .result ho hran hlooked rfl hid hcarried

theorem sends_of_tells {cs : List Call} (htells : Tells s o past cs) {c : Call} (hc : c ∈ cs)
    {kind : MessageKind} (hm : Inbound.ofBytes kind c.bytes = .ok m) : Sends s o past c.peer m := by
  cases htells with
  | proposal ho hkept =>
    obtain ⟨peer, -, rfl⟩ := List.mem_map.1 hc
    obtain ⟨q, rfl, hid, hproposer, hstate⟩ := Inbound.of_proposal hm
    exact .proposal ho hkept hid hproposer hstate
  | cancellation ho hlooked hproposer hmoved =>
    obtain ⟨peer, -, rfl⟩ := List.mem_map.1 hc
    obtain ⟨c, rfl, hid⟩ := Inbound.of_cancellation hm
    exact .cancellation ho hlooked hproposer hmoved hid

/-- What is asked by a call of an operation is what the operation sends. -/
theorem sends_of_permits {e : Effect} (hpermits : Permits s o past e) {i : Nat} {c : Call}
    (hc : e.calls[i]? = some c) {kind : MessageKind}
    (hm : Inbound.ofBytes kind c.bytes = .ok m) : Sends s o past c.peer m := by
  have hmem : c ∈ e.calls := List.mem_of_getElem? hc
  cases e with
  | call c' =>
    obtain rfl : c = c' := by simpa [Effect.calls] using hmem
    exact sends_of_calls hpermits hm
  | callAll cs => exact sends_of_tells hpermits hmem hm
  | _ => cases hmem

end TaskSwarm.Node
