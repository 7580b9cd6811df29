/-
Requests and answers among members.

A member serves a request of another member in an activity of its own. From that
activity a proof goes back to what was sent (`Run.sent`), and from the answer on
to what was served (`Run.served`): a lock that a node was told it has was granted
by the proposer's store, and an acceptance or a result that a node was told of was
taken by the proposer's own operation.
-/
import TaskSwarm.Proofs.Node.Messages
import TaskSwarm.Proofs.Swarm.History

set_option autoImplicit false

namespace TaskSwarm.Swarm

open TaskSwarm.Node

variable {w : Swarm} {h newer older : List Event} {a b x : Activity} {p : Proposal}

/-- A request of a member is one that an operation of that member sends. -/
theorem Run.sent (run : w.Run h) (hmem : .began a ∈ h) {sender : PeerId} {m : Inbound}
    (hm : a.operation = .handle sender m) (hsender : w.isMember sender) :
    ∃ b older, older <:+ h ∧ .began b ∈ older ∧ b.peer = sender ∧
      Sends (w.settings b.peer) b.operation (own b older) a.peer m := by
  rcases run.began_handle hmem hm with ⟨houtside, -⟩ | hcall
  · exact absurd hsender houtside
  · obtain ⟨b, older, e, i, c, kind, hsuffix, hbegan, hpeer, hto, hpermits, hc, hbytes, -⟩ := hcall
    exact ⟨b, older, hsuffix, hbegan, hpeer, hto ▸ sends_of_permits hpermits hc hbytes⟩

/-- What serves a call of an activity began while the activity was making it. -/
theorem Run.making_of_request (run : w.Run h) (hbegan : .began x ∈ h) {number place i : Nat} {c : Call}
    (horigin : x.origin = .request number place i c) :
    ∃ b older e next kind m, .began x :: older <:+ h ∧ w.Standing b older (.ask e next) ∧
      e.calls[i]? = some c ∧ b.number = number ∧ place = Swarm.place b older ∧ x.peer = c.peer ∧
        Inbound.ofBytes kind c.bytes = .ok m ∧ x.operation = .handle b.peer m := by
  obtain ⟨older, hsuffix, hopens⟩ := run.opens hbegan
  cases hopens with
  | user => cases horigin
  | outsider => cases horigin
  | spawned => cases horigin
  | request st hcall hmember hkind hbytes =>
    cases horigin
    exact ⟨_, older, _, _, _, _, hsuffix, st, hcall, rfl, rfl, rfl, hbytes, rfl⟩

/-- What serves a call is an operation of the peer that is called, on what the call asks. -/
theorem Run.operation_of_request (run : w.Run h) (hmem : .began x ∈ h) {number place i : Nat}
    {c : Call} (horigin : x.origin = .request number place i c) :
    x.peer = c.peer ∧ ∃ b kind m, .began b ∈ h ∧ b.number = number ∧
      Inbound.ofBytes kind c.bytes = .ok m ∧ x.operation = .handle b.peer m := by
  obtain ⟨b, older, e, next, kind, m, hsuffix, st, -, hnumber, -, hpeer, hbytes, ho⟩ :=
    run.making_of_request hmem horigin
  exact ⟨hpeer, b, kind, m, hsuffix.subset (List.mem_cons_of_mem _ st.began_mem), hnumber, hbytes, ho⟩

/-- What a member brings well was served well by an operation of that member. -/
theorem served_of_brought {i : Nat} {c : Call} {r : Except CallFault ByteArray}
    (hbrought : w.Brought h a i c r) (hmember : w.isMember c.peer) {peer : PeerId} {v : Json}
    (hanswer : readAnswer peer r = .ok v) :
    ∃ x u now, .ended x (.ok u) ∈ h ∧ x.origin = .request a.number (place a h) i c ∧
      r = .ok (Wire.writeMessage Response.codec (.ofOutcome now (.ok u))) := by
  cases r with
  | error fault => cases hanswer
  | ok bytes =>
    obtain ⟨now, o, rfl, hserved⟩ := hbrought hmember
    obtain ⟨u, rfl, -⟩ := outcome_of_readAnswer hanswer
    rcases hserved with ⟨x, hended, horigin⟩ | ⟨kind, e, -, -, herror⟩
    · exact ⟨x, u, now, hended, horigin, rfl⟩
    · cases herror

/-- A call to a member that has just been answered well was served well by an operation of that member. -/
theorem Run.served_at {c : Call} {r : Except CallFault ByteArray}
    (run : w.Run (.asked a (.call c) r :: older)) (hmember : w.isMember c.peer) {peer : PeerId} {v : Json}
    (hanswer : readAnswer peer r = .ok v) :
    ∃ x u now, .ended x (.ok u) ∈ older ∧ x.origin = .request a.number (place a older) 0 c ∧
      r = .ok (Wire.writeMessage Response.codec (.ofOutcome now (.ok u))) :=
  served_of_brought run.possible hmember hanswer

/-- A call to a member that was answered well was served well by an operation of that member. -/
theorem Run.served (run : w.Run h) {c : Call} {r : Except CallFault ByteArray}
    (hmem : .asked a (.call c) r ∈ h) (hmember : w.isMember c.peer) {peer : PeerId} {v : Json}
    (hanswer : readAnswer peer r = .ok v) :
    ∃ x u now place, .ended x (.ok u) ∈ h ∧ x.origin = .request a.number place 0 c ∧
      r = .ok (Wire.writeMessage Response.codec (.ofOutcome now (.ok u))) := by
  obtain ⟨newer, older, rfl⟩ := List.append_of_mem hmem
  obtain ⟨x, u, now, hended, horigin, hr⟩ := run.of_append.served_at hmember hanswer
  exact ⟨x, u, now, _, List.mem_append_right _ (List.mem_cons_of_mem _ hended), horigin, hr⟩

/-- One of many calls, to a member, that was answered well was served well by an operation of that
member. -/
theorem Run.served_among (run : w.Run h) {cs : List Call} {rs : List (Except CallFault ByteArray)} {i : Nat}
    {c : Call} {r : Except CallFault ByteArray} (hmem : .asked a (.callAll cs) rs ∈ h)
    (hc : cs[i]? = some c) (hr : rs[i]? = some r) (hmember : w.isMember c.peer) {peer : PeerId} {v : Json}
    (hanswer : readAnswer peer r = .ok v) :
    ∃ x u place, .ended x (.ok u) ∈ h ∧ x.origin = .request a.number place i c := by
  obtain ⟨newer, older, rfl⟩ := List.append_of_mem hmem
  obtain ⟨x, u, -, hended, horigin, -⟩ :=
    served_of_brought (run.of_append.possible.2 i c r hc hr) hmember hanswer
  exact ⟨x, u, _, List.mem_append_right _ (List.mem_cons_of_mem _ hended), horigin⟩

/-- A member that says that a node has the lock has granted it. -/
theorem Run.granted (run : w.Run h) (hlock : GotLock (w.settings a.peer) (own a h) p)
    (hmember : w.isMember p.proposer) :
    ∃ x token t token' former,
      .asked x (.store (.lock ⟨p.id, token, a.peer⟩ t)) (.granted token' former) ∈ h ∧
        x.peer = p.proposer := by
  obtain ⟨token, t, r, value, answer, hgot, hvalue, hanswer, hsuccess⟩ := hlock
  obtain ⟨x, u, now, place, hended, horigin, rfl⟩ := run.served (got_own_iff.1 hgot) hmember hvalue
  have hbegan : .began x ∈ h := run.began_of_mem hended
  obtain ⟨hpeer, b, kind, m, hb, hnumber, hbytes, ho⟩ := run.operation_of_request hbegan horigin
  obtain rfl := Inbound.of_lock hbytes
  obtain ⟨newer, older, rfl⟩ := List.append_of_mem hended
  have hends := run.of_append.ends
  rw [ho] at hends
  obtain ⟨t', d, hd, hu⟩ := hends
  cases hu
  obtain ⟨token', former, rfl⟩ := granted_of_readAnswer hvalue hanswer hsuccess
  refine ⟨x, token, t', token', former, ?_, hpeer⟩
  have hd := got_own_iff.1 hd
  rw [w.named] at hd
  exact List.mem_append_right _ (List.mem_cons_of_mem _ hd)

/-- A member that says that a node is accepted has served its request. -/
theorem Run.accepted (run : w.Run h)
    (haccepted : GotAcceptance (w.settings a.peer) (own a h) p) (hmember : w.isMember p.proposer) :
    ∃ x u c sender y place, .ended x (.ok u) ∈ h ∧ x.origin = .request a.number place 0 c ∧
      x.peer = p.proposer ∧ x.operation = .handle sender (.acceptance y) ∧
        y.proposalId = p.id ∧ y.acceptedBy = a.peer := by
  obtain ⟨t, t', r, value, hgot, hvalue⟩ := haccepted
  obtain ⟨x, u, now, place, hended, horigin, rfl⟩ := run.served (got_own_iff.1 hgot) hmember hvalue
  have hbegan : .began x ∈ h := run.began_of_mem hended
  obtain ⟨hpeer, b, kind, m, hb, hnumber, hbytes, ho⟩ := run.operation_of_request hbegan horigin
  obtain ⟨y, rfl, hid, hby⟩ := Inbound.of_acceptance hbytes
  exact ⟨x, u, _, b.peer, y, place, hended, horigin, hpeer, ho, hid, hby.trans (w.named a.peer)⟩

/-- A member that says that it has a result has served the request with that result. -/
theorem Run.received (run : w.Run h) {id : String} {v : Json}
    (hreceipt : GotReceipt (w.settings a.peer) (own a h) id v)
    (hmember : ∀ p, Looked (own a h) id p → w.isMember p.proposer) :
    ∃ p x u sender y, Looked (own a h) id p ∧ .ended x (.ok u) ∈ h ∧ x.peer = p.proposer ∧
      x.operation = .handle sender (.result y) ∧ y.proposalId = id ∧ v.Carried y.result := by
  obtain ⟨p, t, t', r, value, hlooked, hgot, hvalue⟩ := hreceipt
  obtain ⟨x, u, now, place, hended, horigin, rfl⟩ :=
    run.served (got_own_iff.1 hgot) (hmember p hlooked) hvalue
  have hbegan : .began x ∈ h := run.began_of_mem hended
  obtain ⟨hpeer, b, kind, m, hb, hnumber, hbytes, ho⟩ := run.operation_of_request hbegan horigin
  obtain ⟨y, rfl, hid, hcarried⟩ := Inbound.of_result hbytes
  exact ⟨p, x, u, b.peer, y, hlooked, hended, hpeer, ho, hid, hcarried⟩

end TaskSwarm.Swarm
