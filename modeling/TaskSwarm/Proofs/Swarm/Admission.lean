/-
Proposals that are taken in.

Every record was made by one insertion that the store kept, and has been there since
(`Run.made`). What a node keeps of a proposal of its own is new then. What it keeps of
somebody else's is what it was sent: the check on the way in reads the id and the
proposer (`Run.admitted`), and any proposal that passes it may come to be kept
(`exists_admitting`), whatever it says of its state and its lock. A move puts the lock
of a record right, and nothing else does, so a record keeps the lock law exactly when
it came in with it or has been moved since (`Run.lockLaw_iff`). `half_locked` is a copy
that did not, and has not.
-/
import TaskSwarm.Proofs.Store.LockLaw
import TaskSwarm.Proofs.Swarm.LastMove

set_option autoImplicit false

namespace TaskSwarm

/-! ## The check on the way in -/

namespace Node

open TaskSwarm.Action

variable {s : Settings} {sender : PeerId} {p : Proposal}

/-- What is kept of a proposal that comes in is that proposal, if it passes the check and is
somebody else's. -/
theorem obeys_admission {o : Operation} (ho : o = .handle sender (.proposal p)) :
    (o.program s).Obeys (fun _ e => ∀ q, e = .store (.insert q) →
      q = p ∧ p.receivedFault? = none ∧ p.proposer ≠ s.peer) (fun _ _ => True) [] := by
  subst ho
  show Action.Obeys _ _ _ (Operation.action s (.handle sender (.proposal p)))
  simp only [Operation.action, handle, handleProposal, obeys_bind, obeys_ofOutcome]
  cases hvalid : p.validateReceived with
  | error e => trivial
  | ok _ =>
    have hfault : p.receivedFault? = none := by
      unfold Proposal.validateReceived at hvalid
      split at hvalid
      · cases hvalid
      · next hnone => exact hnone
    simp only [then_ok, obeys_bind, obeys_now, obeys_ite, obeys_pure]
    refine ⟨?_, fun t => ⟨fun _ => trivial, fun hforeign => ?_⟩⟩
    · rintro q heq
      cases heq
    simp only [obeys_bind, obeys_insertProposal, then_ok, obeys_ite, obeys_pure]
    refine ⟨?_, fun kept => ?_⟩
    · rintro q heq
      cases heq
      exact ⟨rfl, hfault, hforeign⟩
    · simp [scheduleClaim]

/-- A proposal that passes the check is kept next, once the clock was read. -/
theorem program_admission (hvalid : p.receivedFault? = none) (hforeign : p.proposer ≠ s.peer) :
    ∃ next : Int64 → Bool → Program (Outcome Json),
      (Operation.handle sender (.proposal p)).program s =
        .ask .now fun t => .ask (.store (.insert p)) (next t) := by
  have hok : p.validateReceived = .ok () := by
    unfold Proposal.validateReceived
    rw [hvalid]
  simp only [Operation.program, Operation.action, handle, handleProposal, hok, if_neg hforeign]
  exact ⟨_, rfl⟩

end Node

namespace Swarm

open TaskSwarm.Node

variable {w : Swarm} {h newer older : List Event} {a b : Activity} {n sender : PeerId} {k : String}
  {p q r : Proposal} {event : Event}

theorem Run.admitted {kept : Bool} (run : w.Run (.asked a (.store (.insert q)) kept :: h))
    (ho : a.operation = .handle sender (.proposal p)) :
    q = p ∧ p.receivedFault? = none ∧ p.proposer ≠ a.peer := by
  have hinsert := run.asksAs (obeys_admission ho) q rfl
  rwa [w.named] at hinsert

/-! ## How a record came about -/

/-- What a node keeps under an id goes back to one insertion, and has been there since. -/
structure Made (w : Swarm) (newer : List Event) (a : Activity) (p : Proposal) (older : List Event)
    (n : PeerId) (k : String) : Prop where
  peer : a.peer = n
  id : p.id = k
  first : w.record (.asked a (.store (.insert p)) true :: older) n k = some p
  since : ∀ later, later <:+ newer → ∃ q,
    w.record (later ++ .asked a (.store (.insert p)) true :: older) n k = some q ∧ Proposal.Kin p q

theorem Run.made (run : w.Run h) (hr : w.record h n k = some r) :
    ∃ newer a p older, h = newer ++ .asked a (.store (.insert p)) true :: older ∧
      w.Made newer a p older n k := by
  induction h generalizing r with
  | nil => cases hr
  | cons event h ih =>
    cases hbefore : w.record h n k with
    | none =>
      obtain ⟨hid, a, rfl, rfl⟩ := run.taken_in hbefore hr
      refine ⟨[], a, r, h, rfl, rfl, hid, hr, fun later hlater => ?_⟩
      rw [List.suffix_nil.1 hlater]
      exact ⟨r, hr, .refl r⟩
    | some q =>
      obtain ⟨newer, a, p, older, rfl, hmade⟩ := ih run.tail hbefore
      refine ⟨event :: newer, a, p, older, rfl, hmade.peer, hmade.id, hmade.first,
        fun later hlater => ?_⟩
      obtain rfl | hlater := List.suffix_cons_iff.1 hlater
      · obtain ⟨q', hq', hkin⟩ := hmade.since newer List.suffix_rfl
        cases hbefore.symm.trans hq'
        refine ⟨r, hr, ?_⟩
        obtain rfl | ⟨b, c, answer, timeout, -, -, hchanges⟩ := eq_or_changes hbefore hr
        · exact hkin
        · exact hkin.trans hchanges.kin
      · exact hmade.since later hlater

/-- What was not moved since it came in is as it came in, the note of progress apart. -/
theorem Run.unmoved_since (run : w.Run (newer ++ .asked b (.store (.insert p)) true :: older))
    (hmade : w.Made newer b p older n k)
    (hr : w.record (newer ++ .asked b (.store (.insert p)) true :: older) n k = some r)
    (hlast : lastMove n k newer = none) : ∃ progress, r = { p with progress := progress } := by
  have hnone : ∀ e ∈ newer, e.moves n k = false := by
    simpa [lastMove, List.find?_eq_none] using hlast
  obtain ⟨progress, hkept⟩ := run.record_unmoved hmade.first
    (fun later hlater => (hmade.since later hlater).imp fun _ hq => hq.1) hnone
  exact ⟨progress, Option.some.inj (hr.symm.trans hkept)⟩

/-- What was moved since it came in is under the lock that the last move left. -/
theorem Run.isUnder_of_lastMove (run : w.Run (newer ++ .asked b (.store (.insert p)) true :: older))
    (hmade : w.Made newer b p older n k)
    (hr : w.record (newer ++ .asked b (.store (.insert p)) true :: older) n k = some r)
    (hlast : lastMove n k newer = some event) :
    ∃ x c answer, event = .asked x (.store c) answer ∧ r.IsUnder (c.lockLeft none) := by
  obtain ⟨hmoves, last, first, rfl, hnone⟩ := lastMove_eq_some_iff.1 hlast
  rw [List.append_assoc, List.cons_append] at run hr
  obtain ⟨x, c, answer, p', q, rfl, -, hmoved, -, hchanges, hq⟩ := run.of_append.changes_of_moves hmoves
  have hthere : ∀ later, later <:+ last → ∃ q', w.record
      (later ++ .asked x (.store c) answer :: (first ++ .asked b (.store (.insert p)) true :: older)) n k =
        some q' := by
    rintro later ⟨before, rfl⟩
    obtain ⟨q', hq', -⟩ := hmade.since (later ++ .asked x (.store c) answer :: first)
      ⟨before, by simp⟩
    exact ⟨q', by simpa using hq'⟩
  obtain ⟨progress, hkept⟩ := run.record_unmoved hq hthere hnone
  cases hr.symm.trans hkept
  have hunder := hchanges.isUnder_of_moves hmoved
  exact ⟨x, c, answer, rfl, hunder.state, hunder.token, hunder.holder, hunder.since⟩

/-- A record keeps the lock law if it came in with it, or has been moved since. -/
theorem Run.lockLaw_since (run : w.Run (newer ++ .asked a (.store (.insert p)) true :: older))
    (hmade : w.Made newer a p older n k)
    (hr : w.record (newer ++ .asked a (.store (.insert p)) true :: older) n k = some r) :
    r.LockLaw ↔ p.LockLaw ∨ ∃ e ∈ newer, e.moves n k = true := by
  cases hlast : lastMove n k newer with
  | some event =>
    obtain ⟨x, c, answer, rfl, hunder⟩ := run.isUnder_of_lastMove hmade hr hlast
    refine iff_of_true hunder.lockLaw (.inr ⟨_, List.mem_of_find?_eq_some hlast, ?_⟩)
    exact (lastMove_eq_some_iff.1 hlast).1
  | none =>
    obtain ⟨progress, rfl⟩ := run.unmoved_since hmade hr hlast
    have hnone : ¬ ∃ e ∈ newer, e.moves n k = true := by
      simpa [lastMove, List.find?_eq_none] using hlast
    rw [Proposal.lockLaw_progressed, or_iff_left hnone]

/-! ## What may come in -/

/-- Any proposal that passes the check may come to be kept as it was sent. -/
theorem exists_admitting (hmember : w.isMember n) (hsender : ¬ w.isMember sender)
    (hvalid : p.receivedFault? = none) (hforeign : p.proposer ≠ n) :
    ∃ h, w.Run h ∧ .began ⟨0, n, .outside, .handle sender (.proposal p)⟩ ∈ h ∧
      w.record h n p.id = some p := by
  let a : Activity := ⟨0, n, .outside, .handle sender (.proposal p)⟩
  have hsettings : p.proposer ≠ (w.settings n).peer := by rwa [w.named]
  obtain ⟨next, hprogram⟩ : ∃ next : Int64 → Bool → Program (Outcome Json),
      a.operation.program (w.settings n) =
        .ask .now fun t => .ask (.store (.insert p)) (next t) := program_admission hvalid hsettings
  have hbegan : w.Run [.began a] :=
    .begin .nil (by simp) (by simp) (.outsider hmember hsender)
  have hstart : w.Standing a [.began a] (.ask .now fun t => .ask (.store (.insert p)) (next t)) :=
    hprogram ▸ Standing.began
  have htold : w.Run [.asked a .now 0, .began a] := .ask hbegan hstart trivial
  have hkept : w.Run [.asked a (.store (.insert p)) true, .asked a .now 0, .began a] :=
    .ask htold (.asked 0 hstart) rfl
  refine ⟨_, hkept, by simp [a], ?_⟩
  simp [record, store, a, Store.step, Store.empty, SortedMap.contains]

/-- A proposal that is not LOCKED and yet names a lock. -/
def halfLocked : Proposal := { Proposal.new "t" "p" (echo []) 0 with lockId := some "L" }

/-! ## The lock law -/

/-- **Which records keep the lock law.** What a node keeps was kept by one insertion and has been
there since. A proposal of its own was new then; somebody else's was sent to the node and passed the
check. The three parts of its lock are there exactly while it is LOCKED if they were so when it came
in, or if it has been moved since, and in no other case. -/
theorem Run.lockLaw_iff (run : w.Run h) (hr : w.record h n k = some r) :
    ∃ newer a p older, h = newer ++ .asked a (.store (.insert p)) true :: older ∧
      w.Made newer a p older n k ∧
      ((p.proposer = n ∧ p.LockLaw) ∨ (p.proposer ≠ n ∧ p.receivedFault? = none ∧
        ∃ sender, a.operation = .handle sender (.proposal p))) ∧
      (r.LockLaw ↔ p.LockLaw ∨ ∃ e ∈ newer, e.moves n k = true) := by
  obtain ⟨newer, a, p, older, rfl, hmade⟩ := run.made hr
  refine ⟨newer, a, p, older, rfl, hmade, ?_, run.lockLaw_since hmade hr⟩
  have hinsert := run.of_append
  by_cases hown : p.proposer = n
  · obtain ⟨spec, t, heq⟩ := hinsert.new_of_insert (hown.trans hmade.peer.symm)
    refine .inl ⟨hown, ?_⟩
    rw [heq]
    exact (Proposal.isUnder_new ..).lockLaw
  · refine .inr ⟨hown, ?_⟩
    cases hinsert.permits with
    | create => exact absurd ((w.named _).trans hmade.peer) hown
    | @receive sender _ ho =>
      obtain ⟨-, hvalid, -⟩ := hinsert.admitted ho
      exact ⟨hvalid, sender, ho⟩

/-- A copy comes in without the other parts of its lock, and is locked later. -/
def relocked : List Turn :=
  [.outsider "a" "x" (.proposal halfLocked), .go 0 (calm ""), .go 0 (calm ""),
    .outsider "a" "y" (.lock ⟨"t", "M", "y"⟩), .go 3 (calm ""), .go 3 (calm "")]

theorem relocked_lawful : ∃ r, (among ["a"]).record ((among ["a"]).played relocked) "a" "t" = some r ∧
    r.LockLaw ∧ ∃ newer a p older,
      (among ["a"]).played relocked = newer ++ .asked a (.store (.insert p)) true :: older ∧
        (among ["a"]).Made newer a p older "a" "t" ∧
          (p.LockLaw ∨ ∃ e ∈ newer, e.moves "a" "t" = true) := by
  obtain ⟨r, hr, hlaw⟩ : ∃ r, (among ["a"]).record ((among ["a"]).played relocked) "a" "t" = some r ∧
      r.LockLaw := ⟨_, rfl, fun _ => ⟨rfl, rfl, rfl⟩, fun hstate => absurd rfl hstate⟩
  obtain ⟨newer, a, p, older, heq, hmade, -, hiff⟩ := (run_played relocked).lockLaw_iff hr
  exact ⟨r, hr, hlaw, newer, a, p, older, heq, hmade, hiff.1 hlaw⟩

/-- The request that tells of such a proposal. -/
def halfLockedRequest : Request := .new .proposal Proposal.codec halfLocked 0

/-- It is read from the wire as it is, and kept as it is. -/
theorem half_locked :
    Inbound.ofBytes .proposal (Wire.writeMessage Request.codec halfLockedRequest) =
        .ok (.proposal halfLocked) ∧
      ∃ h r, (among ["a"]).Run h ∧
        .began ⟨0, "a", .outside, .handle "x" (.proposal halfLocked)⟩ ∈ h ∧
          (among ["a"]).record h "a" "t" = some r ∧ r.proposer = "p" ∧ r.state = .proposed ∧
            r.lockId = some "L" ∧ ¬ r.LockLaw := by
  have hsize : (Wire.textBytes (Request.codec.encode halfLockedRequest)).length <
      Wire.maxMessageSize := by decide +kernel
  have hheard : Inbound.ofHeard? halfLockedRequest = some (.proposal halfLocked) := by decide +kernel
  have hbytes := Inbound.ofBytes_writeMessage hsize hheard
  have hmember : (among ["a"]).isMember "a" := by decide
  have hsender : ¬ (among ["a"]).isMember "x" := by decide
  have hvalid : halfLocked.receivedFault? = none := by decide
  have hforeign : halfLocked.proposer ≠ "a" := by decide
  obtain ⟨h, run, hbegan, hr⟩ := exists_admitting hmember hsender hvalid hforeign
  refine ⟨hbytes, h, halfLocked, run, hbegan, hr, rfl, rfl, rfl, ?_⟩
  intro hlaw
  have hfree := (hlaw.free (by decide)).1
  cases hfree

end Swarm

end TaskSwarm
