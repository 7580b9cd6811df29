/-
What one look at who is there comes to.

Now and then the monitor is told who can be reached, and sets its records against that. The
peers it changes are those that are connected without being there and those that are there
without being connected (`changes_observe`), and each of them changes once, from what was kept
of it before the look (`Changes.single`), so neither of the two rounds can disturb what the
other does. All others are left alone (`reconciled_observe`).
-/
import TaskSwarm.Proofs.Health.Presence

set_option autoImplicit false

namespace TaskSwarm.Monitor

variable {m m' : Monitor} {peer : PeerId} {peers live : List PeerId} {c : PeerConnection}
  {e : NodeEvent} {out : List MonitorOutput} {now : Int64}

/-- Nothing has happened to a peer: what is kept of it and what goes on for it is as before, and nothing
is told of it. -/
structure Untouched (m m' : Monitor) (out : List MonitorOutput) (peer : PeerId) : Prop where
  record : m'.connections.get? peer = m.connections.get? peer
  numbers : ∀ kind, m'.number? kind peer = m.number? kind peer
  silent : toldOf peer out = []

/-- What is kept of a peer that has just been lost: nothing if there are to be no attempts to reconnect,
and else that the first one is pending. -/
structure JustLost (maxRetries : Nat) (m : Monitor) (peer : PeerId) : Prop where
  forgotten : maxRetries = 0 → m.connections.get? peer = none
  pending : 0 < maxRetries → ∃ c number, m.connections.get? peer = some c ∧ c.isConnected = false ∧
    c.reconnectAttempts = 1 ∧ m.number? .reconnect peer = some number

/-- The records agree with who is there, and nothing but that has changed. -/
structure Reconciled (m m' : Monitor) (live : List PeerId) (out : List MonitorOutput) : Prop where
  connected : ∀ peer, m'.isConnected peer = true ↔ peer ∈ live
  /-- Peers that are connected and there, and peers that are neither. -/
  stayed : ∀ peer, (m.isConnected peer = true ↔ peer ∈ live) → Untouched m m' out peer
  came : ∀ peer ∈ live, m.isConnected peer = false → ∃ c, m'.connections.get? peer = some c ∧
    c.isConnected = true ∧ c.reconnectAttempts = 0 ∧ toldOf peer out = [.peerConnected peer c]
  went : ∀ peer, peer ∉ live → m.isConnected peer = true →
    JustLost m.maxRetries m' peer ∧ toldOf peer out = [.peerDisconnected peer 0]
  /-- Whatever is told is told of some peer. -/
  told : ∀ e, .tell e ∈ out → ∃ peer, e.peer? = some peer

theorem Change.peer?_of_told (h : m.Change peer m' out) (he : .tell e ∈ out) : e.peer? = some peer := by
  cases h with
  | met =>
    obtain rfl : e = .peerConnected peer _ := by simpa using he
    rfl
  | answered =>
    obtain rfl : e = .heartbeat peer _ := by simpa using he
    rfl
  | retried _ hmiss =>
    obtain rfl : e = _ := by simpa using he
    exact hmiss.peer?_eq
  | forgotten _ hmiss =>
    obtain rfl : e = _ := by simpa using he
    exact hmiss.peer?_eq

theorem Changes.exists_of_told (h : Changes peers m m' out) (he : .tell e ∈ out) :
    ∃ peer, e.peer? = some peer := by
  induction h with
  | nil => cases he
  | cons hchange _ ih =>
    rcases List.mem_append.1 he with he | he
    · exact ⟨_, hchange.peer?_of_told he⟩
    · exact ih he

/-- A connected peer that is not connected after its change has just been lost, and is told to be. -/
theorem Change.lost (h : m.Change peer m' out) (hc : m.connections.get? peer = some c)
    (hconnected : c.isConnected = true) (hrested : c.reconnectAttempts = 0)
    (hlost : m'.isConnected peer = false) :
    toldOf peer out = [.peerDisconnected peer 0] ∧
      ((m.maxRetries = 0 ∧ m'.connections.get? peer = none) ∨
        (0 < m.maxRetries ∧ ∃ d, m'.connections.get? peer = some d ∧ d.isConnected = false ∧
          d.reconnectAttempts = 1)) := by
  cases h with
  | met hunconnected =>
    rw [isConnected_of_get? hc, hconnected] at hunconnected
    cases hunconnected
  | @answered _ d _ _ _ hstill =>
    rw [isConnected, get?_refresh, if_pos rfl, Option.any_some, hstill] at hlost
    cases hlost
  | @retried c' d e hc' hmiss hlt _ hgone hattempts =>
    cases hc.symm.trans hc'
    cases hmiss with
    | gone =>
      rw [hrested] at hlt hattempts
      refine ⟨by simp [toldOf_tell, NodeEvent.peer?, hrested], .inr ⟨hlt, d, ?_, hgone, hattempts⟩⟩
      rw [get?_retry, if_pos rfl]
    | failed hlost =>
      rw [hconnected] at hlost
      cases hlost
  | @forgotten c' e hc' hmiss hle =>
    cases hc.symm.trans hc'
    cases hmiss with
    | gone =>
      rw [hrested] at hle
      refine ⟨by simp [toldOf_tell, NodeEvent.peer?, hrested], .inl ⟨Nat.le_zero.1 hle, ?_⟩⟩
      rw [get?_forget, if_pos rfl]
    | failed hlost =>
      rw [hconnected] at hlost
      cases hlost

theorem lost_of_observe (h : m.Bookkept) (hgone : peer ∉ live) (hconnected : m.isConnected peer = true) :
    JustLost m.maxRetries (m.observe now live).1 peer ∧
      toldOf peer (m.observe now live).2 = [.peerDisconnected peer 0] := by
  obtain ⟨peers, hnodup, -, hchanges⟩ := changes_observe h now live
  obtain ⟨c, hc, hconnected⟩ := exists_of_isConnected hconnected
  have hrested := (h.inOrder peer).rested c hc hconnected
  have hlost : (m.observe now live).1.isConnected peer = false := by
    rw [isConnected_observe]
    exact decide_eq_false hgone
  have hbooks := (hchanges.bookkept h).inOrder peer
  obtain ⟨hget, -⟩ | ⟨m₁, m₂, out₁, hmax, hget, hchange, hget', htold⟩ := hchanges.single hnodup peer
  · rw [isConnected_of_get? (hget.trans hc), hconnected] at hlost
    cases hlost
  · rw [isConnected, hget'] at hlost
    obtain ⟨hout, hkept⟩ := hchange.lost (hget.trans hc) hconnected hrested hlost
    rw [htold, hout, ← hmax]
    refine ⟨?_, rfl⟩
    obtain ⟨hzero, hnone⟩ | ⟨hpos, d, hd, hdlost, hone⟩ := hkept
    · exact ⟨fun _ => hget'.trans hnone, fun hpos => absurd hzero (Nat.ne_of_gt hpos)⟩
    · rw [← hget'] at hd
      have hpending := hbooks.retrying.2 (by rw [isLost_of_get? hd, hdlost]; rfl)
      obtain ⟨number, hnumber⟩ := mem_reconnects_iff.1 hpending
      exact ⟨fun hzero => absurd hzero (Nat.ne_of_gt hpos),
        fun _ => ⟨d, number, hd, hdlost, hone, hnumber⟩⟩

/-- After a look the records agree with who is there. Whatever a monitor was told before and whoever is
listed, once or more often and in any order: the peers that are connected are those that are listed; each
that was not connected is told to be there, once, and each connected one that is not listed is told to be
gone, once; all other peers keep their record, their heartbeat and their attempt to reconnect, and
nothing is told of them or of anything else. -/
theorem reconciled_observe (maxRetries : Nat) (inputs : List (Int64 × MonitorInput)) (now : Int64)
    (live : List PeerId) :
    Reconciled ((new maxRetries).after inputs) (((new maxRetries).after inputs).observe now live).1 live
      (((new maxRetries).after inputs).observe now live).2 := by
  obtain ⟨_, hrun⟩ := changes_after (bookkept_new maxRetries) inputs
  have hbooks := hrun.bookkept (bookkept_new maxRetries)
  generalize (new maxRetries).after inputs = m at *
  obtain ⟨peers, hnodup, hturned, hchanges⟩ := changes_observe hbooks now live
  refine ⟨fun peer => ?_, fun peer hsame => ?_, fun peer hlive hunconnected => ?_,
    fun peer hgone hconnected => lost_of_observe hbooks hgone hconnected,
    fun e he => hchanges.exists_of_told he⟩
  · rw [isConnected_observe, decide_eq_true_eq]
  · have hnot : peer ∉ peers := by
      rw [hturned, hsame]
      exact fun h => iff_not_self h
    exact ⟨hchanges.get?_of_notMem hnot, fun _ => hchanges.number?_of_notMem hnot,
      hchanges.toldOf_of_notMem hnot⟩
  · have hconnected : (m.step now (.observed live)).1.isConnected peer = true := by
      rw [step, isConnected_observe]
      exact decide_eq_true hlive
    obtain ⟨c, hc, htold⟩ := toldOf_step_of_connected hbooks hunconnected hconnected
    rw [isConnected_of_get? hc] at hconnected
    have hrested := ((hchanges.bookkept hbooks).inOrder peer).rested c hc hconnected
    exact ⟨c, hc, hconnected, hrested, htold⟩

end TaskSwarm.Monitor
