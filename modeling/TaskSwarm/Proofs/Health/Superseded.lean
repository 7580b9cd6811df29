/-
Reports of what was superseded.

A heartbeat that is called off, or an attempt to reconnect that is replaced, may have reported
already, and its report may come at any later time. The monitor tells such reports by their
numbers alone. That this is enough is a matter of whole runs: what is going on for a peer is
what was started last and not ended since (`Going`, `going_after`), numbers are given out in
increasing order, whoever they are for (`Dealt`), so none is ever given out again, and a
report under any other number changes nothing (`step_of_superseded`).
-/
import TaskSwarm.Proofs.Health.Bookkeeping

set_option autoImplicit false

namespace TaskSwarm

/-- Something that goes on for a peer and reports under a number. -/
structure Probe where
  kind : ProbeKind
  peer : PeerId
  number : Nat
  deriving DecidableEq

namespace Probe

/-- How it is started. -/
def start : Probe → MonitorOutput
  | ⟨.heartbeat, peer, number⟩ => .startHeartbeat peer number
  | ⟨.reconnect, peer, number⟩ => .startReconnect peer number

/-- A report of it, whatever came of it. -/
inductive Reports : Probe → MonitorInput → Prop
  | heartbeat {peer : PeerId} {number : Nat} (latency : Option Nat) :
      Reports ⟨.heartbeat, peer, number⟩ (.heartbeat peer number latency)
  | reconnect {peer : PeerId} {number : Nat} (outcome : Outcome Unit) :
      Reports ⟨.reconnect, peer, number⟩ (.reconnect peer number outcome)

/-- What is over once something is done: what is replaced by another of its kind, the heartbeat of a peer
that is gone, the attempt that failed, and the attempt to reconnect to a peer that is there again. -/
def over? : MonitorOutput → Option (ProbeKind × PeerId)
  | .startHeartbeat peer _ | .tell (.peerDisconnected peer _) => some (.heartbeat, peer)
  | .startReconnect peer _ | .tell (.peerConnected peer _) | .tell (.reconnectFailed peer _) =>
    some (.reconnect, peer)
  | .tell _ => none

/-- It is over once something is done. -/
def EndedBy (p : Probe) (o : MonitorOutput) : Prop := over? o = some (p.kind, p.peer)

/-- After all that was done it is still going: it was started, and nothing since has ended it. -/
def Going (p : Probe) (past : List MonitorOutput) : Prop :=
  ∃ earlier later, past = earlier ++ p.start :: later ∧ ∀ o ∈ later, ¬ p.EndedBy o

/-- The number that is given out when something is started. -/
def given? : MonitorOutput → Option Nat
  | .startHeartbeat _ number | .startReconnect _ number => some number
  | .tell _ => none

/-- The numbers that are given out. -/
def given (past : List MonitorOutput) : List Nat := past.filterMap given?

variable {p q : Probe} {o : MonitorOutput} {past earlier later : List MonitorOutput}

theorem given?_start : given? p.start = some p.number := by
  obtain ⟨kind, peer, number⟩ := p
  cases kind <;> rfl

theorem mem_given (h : p.start ∈ past) : p.number ∈ given past :=
  List.mem_filterMap.2 ⟨p.start, h, given?_start⟩

theorem given_append : given (earlier ++ later) = given earlier ++ given later := List.filterMap_append

theorem given_start : given (p.start :: past) = p.number :: given past :=
  List.filterMap_cons_some given?_start

theorem not_going_nil : ¬ p.Going [] := by
  rintro ⟨earlier, later, heq, -⟩
  simp at heq

theorem going_concat : p.Going (past ++ [o]) ↔ o = p.start ∨ (p.Going past ∧ ¬ p.EndedBy o) := by
  constructor
  · rintro ⟨earlier, later, heq, hlater⟩
    obtain rfl | ⟨later, last, rfl⟩ := later.eq_nil_or_concat
    · exact .inl (List.singleton_inj.1 (List.append_inj' heq rfl).2)
    · rw [List.concat_eq_append] at heq hlater
      rw [← List.cons_append, ← List.append_assoc] at heq
      obtain ⟨hpast, hlast⟩ := List.append_inj' heq rfl
      rw [List.singleton_inj.1 hlast]
      exact .inr ⟨⟨earlier, later, hpast, fun o ho => hlater o (List.mem_append_left _ ho)⟩,
        hlater last (List.mem_append_right _ List.mem_cons_self)⟩
  · rintro (rfl | ⟨⟨earlier, later, rfl, hlater⟩, hend⟩)
    · exact ⟨past, [], rfl, fun _ ho => absurd ho List.not_mem_nil⟩
    · refine ⟨earlier, later ++ [o], by simp, fun o' ho' => ?_⟩
      rcases List.mem_append.1 ho' with ho' | ho'
      · exact hlater o' ho'
      · rw [List.mem_singleton.1 ho']
        exact hend

/-- Where numbers increase, none is given out twice. -/
theorem number_ne_of_increasing (h : (given (earlier ++ p.start :: later)).Pairwise (· < ·))
    (hq : q.start ∈ earlier ++ later) : q.number ≠ p.number := by
  rw [given_append, given_start] at h
  obtain ⟨-, hafter, hbefore⟩ := List.pairwise_append.1 h
  rcases List.mem_append.1 hq with hq | hq
  · exact Nat.ne_of_lt (hbefore _ (mem_given hq) _ List.mem_cons_self)
  · exact Nat.ne_of_gt ((List.pairwise_cons.1 hafter).1 _ (mem_given hq))

/-- What was started once is going until something ends it. -/
theorem going_iff_of_once (hearlier : p.start ∉ earlier) (hlater : p.start ∉ later) :
    p.Going (earlier ++ p.start :: later) ↔ ∀ o ∈ later, ¬ p.EndedBy o := by
  constructor
  · rintro ⟨earlier', later', heq, hgoing⟩
    -- Both decompositions are at the one place where it was started.
    obtain ⟨as, -, has⟩ | ⟨bs, hbs, heq⟩ := List.append_eq_append_iff.1 heq
    · cases as with
      | nil =>
        cases has
        exact hgoing
      | cons a as =>
        cases has
        exact absurd (List.mem_append_right _ List.mem_cons_self) hlater
    · cases bs with
      | nil =>
        cases heq
        exact hgoing
      | cons b bs =>
        rw [← (List.cons.inj heq).1] at hbs
        rw [hbs] at hearlier
        exact absurd (List.mem_append_right _ List.mem_cons_self) hearlier
  · intro hgoing
    exact ⟨earlier, later, rfl, hgoing⟩

end Probe

namespace Monitor

open Probe

variable {m m' : Monitor} {peer : PeerId} {c : PeerConnection} {e : NodeEvent} {now : Int64}
  {i : MonitorInput} {peers : List PeerId} {out past : List MonitorOutput} {p : Probe}

/-- What is going on, by the numbers the monitor keeps, is what was started and has not ended since. -/
def Tracks (m : Monitor) (past : List MonitorOutput) : Prop :=
  ∀ p : Probe, m.number? p.kind p.peer = some p.number ↔ p.Going past

theorem Tracks.change (hI : m.Tracks past) (h : m.Bookkept) (hchange : m.Change peer m' out) :
    m'.Tracks (past ++ out) := by
  rintro ⟨kind, q, number⟩
  have hold := hI ⟨kind, q, number⟩
  cases hchange with
  | met =>
    rw [List.append_cons, going_concat, going_concat, ← hold, number?_meet]
    by_cases hq : q = peer
    · cases kind <;> simp [hq, start, EndedBy, over?]
    · cases kind <;> simp [hq, start, EndedBy, over?, Ne.symm hq]
  | answered =>
    rw [going_concat, ← hold, number?_refresh]
    cases kind <;> simp [start, EndedBy, over?]
  | retried hc hmiss =>
    rw [List.append_cons, going_concat, going_concat, ← hold, number?_retry]
    by_cases hq : q = peer
    · subst hq
      cases hmiss with
      | gone => cases kind <;> simp [start, EndedBy, over?]
      | failed hlost =>
        have hnone := (h.inOrder q).heartbeat_of_lost hc hlost
        cases kind <;> simp [start, EndedBy, over?, hnone]
    · cases hmiss <;> cases kind <;> simp [hq, start, EndedBy, over?, Ne.symm hq]
  | forgotten hc hmiss =>
    rw [going_concat, ← hold, number?_forget]
    by_cases hq : q = peer
    · subst hq
      cases hmiss with
      | gone hconnected =>
        have hnone := (h.inOrder q).reconnect_of_connected hc hconnected
        cases kind <;> simp [start, EndedBy, over?, hnone]
      | failed hlost =>
        have hnone := (h.inOrder q).heartbeat_of_lost hc hlost
        cases kind <;> simp [start, EndedBy, over?, hnone]
    · cases hmiss <;> cases kind <;> simp [hq, start, EndedBy, over?, Ne.symm hq]

/-- The numbers given out so far increase, up to the one given out last. -/
structure Dealt (m : Monitor) (past : List MonitorOutput) : Prop where
  increasing : (given past).Pairwise (· < ·)
  last : ∀ number ∈ given past, number ≤ m.generation

/-- A change gives out the next number, or none. -/
theorem Change.given_out (h : m.Change peer m' out) :
    (given out = [] ∧ m'.generation = m.generation) ∨
      (given out = [m.generation + 1] ∧ m'.generation = m.generation + 1) := by
  cases h with
  | met => exact .inr ⟨rfl, rfl⟩
  | answered => exact .inl ⟨rfl, rfl⟩
  | retried => exact .inr ⟨rfl, rfl⟩
  | forgotten => exact .inl ⟨rfl, rfl⟩

theorem Dealt.change (h : m.Dealt past) (hchange : m.Change peer m' out) : m'.Dealt (past ++ out) := by
  obtain ⟨hout, hgeneration⟩ | ⟨hout, hgeneration⟩ := hchange.given_out
  · constructor
    · rw [given_append, hout, List.append_nil]
      exact h.increasing
    · rw [given_append, hout, List.append_nil, hgeneration]
      exact h.last
  · constructor
    · rw [given_append, hout, List.pairwise_append]
      refine ⟨h.increasing, List.pairwise_singleton _ _, fun number hnumber last hlast => ?_⟩
      have hle := h.last number hnumber
      rw [List.mem_singleton.1 hlast]
      omega
    · rw [given_append, hout, hgeneration]
      intro number hnumber
      rcases List.mem_append.1 hnumber with hnumber | hnumber
      · exact Nat.le_succ_of_le (h.last number hnumber)
      · exact Nat.le_of_eq (List.mem_singleton.1 hnumber)

/-- Whatever a new monitor was told, it keeps track of what it has started. -/
theorem tracks_after (maxRetries : Nat) (inputs : List (Int64 × MonitorInput)) :
    ((new maxRetries).after inputs).Tracks ((new maxRetries).done inputs) ∧
      ((new maxRetries).after inputs).Dealt ((new maxRetries).done inputs) := by
  obtain ⟨peers, hrun⟩ := changes_after (bookkept_new maxRetries) inputs
  refine (hrun.keeps (I := fun m past => m.Tracks past ∧ m.Dealt past) ?_ (bookkept_new maxRetries) []
    ⟨?_, ?_⟩).2
  · intro m peer m' out past hbooks hchange hI
    exact ⟨hI.1.change hbooks hchange, hI.2.change hchange⟩
  · rintro ⟨kind, peer, number⟩
    refine iff_of_false ?_ not_going_nil
    cases kind <;> nofun
  · exact ⟨.nil, fun _ hnumber => absurd hnumber List.not_mem_nil⟩

/-- A report under a number that is not in use changes nothing. -/
theorem step_of_reports (h : p.Reports i) (hnumber : m.number? p.kind p.peer ≠ some p.number) :
    m.step now i = (m, []) := by
  cases h with
  | heartbeat => exact heartbeat_of_stale hnumber
  | reconnect => exact reconnect_of_stale hnumber

/-- What was superseded has no effect any more. Whatever a new monitor was told, of all it has started no
two go by one number; each is registered until something is done that ends it; and from then on no report
of it, whatever it says and whenever it comes, changes anything or is answered. -/
theorem step_of_superseded (maxRetries : Nat) (inputs : List (Int64 × MonitorInput)) (p : Probe)
    (earlier later : List MonitorOutput)
    (hdone : (new maxRetries).done inputs = earlier ++ p.start :: later) :
    (∀ q : Probe, q.start ∈ earlier ++ later → q.number ≠ p.number) ∧
    (((new maxRetries).after inputs).number? p.kind p.peer = some p.number ↔
      ∀ o ∈ later, ¬ p.EndedBy o) ∧
    ((∃ o ∈ later, p.EndedBy o) → ∀ now i, p.Reports i →
      ((new maxRetries).after inputs).step now i = ((new maxRetries).after inputs, [])) := by
  obtain ⟨htracks, hdealt⟩ := tracks_after maxRetries inputs
  have hincreasing := hdealt.increasing
  rw [hdone] at hincreasing
  have hunique : ∀ q : Probe, q.start ∈ earlier ++ later → q.number ≠ p.number :=
    fun q hq => number_ne_of_increasing hincreasing hq
  have hearlier : p.start ∉ earlier := fun h => hunique p (List.mem_append_left _ h) rfl
  have hlater : p.start ∉ later := fun h => hunique p (List.mem_append_right _ h) rfl
  have hgoing := htracks p
  rw [hdone, going_iff_of_once hearlier hlater] at hgoing
  refine ⟨hunique, hgoing, ?_⟩
  rintro ⟨o, ho, hend⟩ now i hreports
  exact step_of_reports hreports fun hnumber => hgoing.1 hnumber o ho hend

/-- A peer is met, lost and reached again: its first heartbeat, which was called off in between, may still
report that it went without an answer. -/
theorem heartbeat_of_reached_again :
    ((new 3).after [(0, .observed ["b"]), (1, .observed []), (2, .reconnect "b" 2 (.ok ()))]).step 3
        (.heartbeat "b" 1 none) =
      ((new 3).after [(0, .observed ["b"]), (1, .observed []), (2, .reconnect "b" 2 (.ok ()))], []) :=
  (step_of_superseded 3 [(0, .observed ["b"]), (1, .observed []), (2, .reconnect "b" 2 (.ok ()))]
    ⟨.heartbeat, "b", 1⟩ []
    [.tell (.peerConnected "b" (.new "b" 0)), .tell (.peerDisconnected "b" 0), .startReconnect "b" 2,
      .startHeartbeat "b" 3, .tell (.peerConnected "b" ⟨"b", .connected, 2, .fresh, 0⟩)] rfl).2.2
    ⟨.tell (.peerDisconnected "b" 0), .tail _ (.head _), rfl⟩ 3 _ (.heartbeat none)

end Monitor

end TaskSwarm
