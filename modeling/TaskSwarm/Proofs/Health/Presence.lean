/-
What is told of peers that come and go.

Of each peer it is told that it is there and that it is gone by turns, and after each time it
is gone, how often an attempt to reconnect has failed. From these events alone one can tell
where the monitor stands with the peer (`Standing`): connected, lost after so many attempts,
forgotten, or never met. One change of the peer leads from one standing to the next
(`Standing.change`), changes of others tell nothing of it, and a step is at most one change
of each peer, so it tells at most one thing of each (`toldOf_step`).

A peer is forgotten with the failure that exhausts its attempts, and no sooner or later; a
peer that is found again starts anew (`agrees_after`).
-/
import TaskSwarm.Proofs.Health.Bookkeeping

set_option autoImplicit false

namespace TaskSwarm

namespace NodeEvent

/-- The status of its peer that an event reports. -/
def status? : NodeEvent → Option PeerStatus
  | peerConnected .. => some .connected
  | peerDisconnected .. => some .disconnected
  | _ => none

/-- Whether an event reports that an attempt to reconnect failed. -/
def isFailure : NodeEvent → Bool
  | reconnectFailed .. => true
  | _ => false

end NodeEvent

namespace Monitor

/-! ## What a history of events says of a peer -/

/-- The event that is told, if it is one of a peer. -/
def toldOf? (peer : PeerId) : MonitorOutput → Option NodeEvent
  | .tell e => if e.peer? = some peer then some e else none
  | _ => none

/-- The events of a peer that are told. -/
def toldOf (peer : PeerId) (out : List MonitorOutput) : List NodeEvent := out.filterMap (toldOf? peer)

/-- The statuses that are reported. -/
def statuses (events : List NodeEvent) : List PeerStatus := events.filterMap NodeEvent.status?

/-- The status reported last. Who was never told to be connected is not. -/
def lastStatus (events : List NodeEvent) : PeerStatus := (statuses events).getLastD .disconnected

/-- After one status, each differs from the one before. -/
def TakeTurns (s : PeerStatus) : List PeerStatus → Prop
  | [] => True
  | t :: rest => t ≠ s ∧ TakeTurns t rest

/-- The peer is told to be connected and to be gone by turns, and the former first. -/
def Alternating (events : List NodeEvent) : Prop := TakeTurns .disconnected (statuses events)

/-- The events since the peer was last told to be connected, the latest first. -/
def sinceConnected (events : List NodeEvent) : List NodeEvent :=
  events.reverse.takeWhile fun e => e.status? ≠ some .connected

/-- How often, since it was last told to be connected, a peer was told to be gone, and how often an
attempt to reconnect was told to have failed. -/
def misses (events : List NodeEvent) : Nat × Nat :=
  ((sinceConnected events).countP fun e => e.status? = some .disconnected,
    (sinceConnected events).countP NodeEvent.isFailure)

variable {m m' : Monitor} {peer q : PeerId} {c : PeerConnection} {now : Int64} {i : MonitorInput}
  {peers : List PeerId} {out rest : List MonitorOutput} {events : List NodeEvent} {e : NodeEvent}

theorem toldOf_append : toldOf peer (out ++ rest) = toldOf peer out ++ toldOf peer rest :=
  List.filterMap_append

@[simp] theorem toldOf_nil : toldOf peer [] = [] := rfl

@[simp] theorem toldOf_startHeartbeat {number : Nat} :
    toldOf peer (.startHeartbeat q number :: out) = toldOf peer out := rfl

@[simp] theorem toldOf_startReconnect {number : Nat} :
    toldOf peer (.startReconnect q number :: out) = toldOf peer out := rfl

theorem toldOf_tell : toldOf peer (.tell e :: out) =
    if e.peer? = some peer then e :: toldOf peer out else toldOf peer out := by
  rw [toldOf, List.filterMap_cons, toldOf?]
  by_cases he : e.peer? = some peer
  · simp [he, toldOf]
  · simp [he, toldOf]

theorem Misses.peer?_eq (h : Misses peer c e) : e.peer? = some peer := by cases h <;> rfl

theorem sinceConnected_concat : sinceConnected (events ++ [e]) =
    if e.status? = some .connected then [] else e :: sinceConnected events := by
  rw [sinceConnected, List.reverse_append, List.reverse_singleton, List.singleton_append,
    List.takeWhile_cons]
  by_cases he : e.status? = some .connected
  · simp [he]
  · simp [he, sinceConnected]

theorem misses_concat : misses (events ++ [e]) =
    if e.status? = some .connected then (0, 0)
    else ((misses events).1 + (if e.status? = some .disconnected then 1 else 0),
      (misses events).2 + (if e.isFailure then 1 else 0)) := by
  rw [misses, sinceConnected_concat]
  split
  · rfl
  · simp only [List.countP_cons, decide_eq_true_eq, misses]

theorem statuses_concat : statuses (events ++ [e]) = statuses events ++ e.status?.toList := by
  cases he : e.status? <;> simp [statuses, he]

theorem lastStatus_concat : lastStatus (events ++ [e]) = e.status?.getD (lastStatus events) := by
  rw [lastStatus, statuses_concat]
  cases e.status? <;> simp [lastStatus]

theorem takeTurns_append {s : PeerStatus} {ss ts : List PeerStatus} :
    TakeTurns s (ss ++ ts) ↔ TakeTurns s ss ∧ TakeTurns (ss.getLastD s) ts := by
  induction ss generalizing s with
  | nil => simp [TakeTurns]
  | cons t rest ih =>
    rw [List.cons_append, TakeTurns, TakeTurns, ih, and_assoc, List.getLastD_cons]

/-- An event that reports the status there was breaks the turns, and no other does. -/
theorem alternating_concat : Alternating (events ++ [e]) ↔
    Alternating events ∧ e.status? ≠ some (lastStatus events) := by
  rw [Alternating, statuses_concat, takeTurns_append, Alternating]
  cases e.status? <;> simp [TakeTurns, lastStatus]

/-! ## Where the monitor stands with a peer -/

/-- Where the monitor stands with a peer: what it keeps of it, and what was told of it. -/
inductive Standing (maxRetries : Nat) : Option PeerConnection → List NodeEvent → Prop
  | unmet : Standing maxRetries none []
  | connected {c : PeerConnection} {events : List NodeEvent} : c.isConnected = true →
      c.reconnectAttempts = 0 → lastStatus events = .connected → misses events = (0, 0) →
      Standing maxRetries (some c) events
  /-- The attempt that is going on has not failed yet. -/
  | lost {c : PeerConnection} {events : List NodeEvent} {failures : Nat} : c.isConnected = false →
      c.reconnectAttempts = failures + 1 → failures < maxRetries →
      lastStatus events = .disconnected → misses events = (1, failures) →
      Standing maxRetries (some c) events
  | forgotten {events : List NodeEvent} : lastStatus events = .disconnected →
      misses events = (1, maxRetries) → Standing maxRetries none events

variable {maxRetries : Nat} {record : Option PeerConnection}

theorem Standing.lastStatus_iff (h : Standing maxRetries record events) :
    lastStatus events = .connected ↔ record.any PeerConnection.isConnected = true := by
  cases h with
  | unmet => simp [lastStatus, statuses]
  | connected hconnected _ hlast _ => simp [hlast, hconnected]
  | lost hlost _ _ hlast _ => simp [hlast, hlost]
  | forgotten hlast _ => simp [hlast]

/-- Nothing is kept of a peer exactly if nothing was told of it, or it was told to be gone and then as
many attempts to have failed as there are. -/
theorem Standing.unknown_iff (h : Standing maxRetries record events) :
    record = none ↔ events = [] ∨ misses events = (1, maxRetries) := by
  cases h with
  | unmet => simp
  | connected _ _ hlast hmisses =>
    have hne : events ≠ [] := by
      rintro rfl
      cases hlast
    simp [hmisses, hne]
  | lost _ _ hlt _ hmisses =>
    have hne : events ≠ [] := by
      rintro rfl
      cases hmisses
    simp [hmisses, hne, Nat.ne_of_lt hlt]
  | forgotten _ hmisses => simp [hmisses]

/-- No more attempts are made than there are. -/
theorem Standing.attempts_le (h : Standing maxRetries (some c) events) :
    c.reconnectAttempts ≤ maxRetries := by
  cases h with
  | connected _ hattempts => omega
  | lost _ hattempts hlt => omega

/-- What is told when a peer cannot be reached, wherever the monitor stood with it. -/
theorem Standing.missed (h : Standing maxRetries (some c) events) (ha : Alternating events)
    (he : Misses peer c e) : Alternating (events ++ [e]) ∧
      lastStatus (events ++ [e]) = .disconnected ∧ misses (events ++ [e]) = (1, c.reconnectAttempts) := by
  cases he with
  | gone hconnected =>
    cases h with
    | connected _ hattempts hlast hmisses =>
      refine ⟨alternating_concat.2 ⟨ha, by simp [hlast, NodeEvent.status?]⟩, ?_, ?_⟩
      · rw [lastStatus_concat]
        rfl
      · rw [misses_concat, hmisses, hattempts]
        rfl
    | lost hlost =>
      rw [hconnected] at hlost
      cases hlost
  | failed hlost =>
    cases h with
    | connected hconnected =>
      rw [hlost] at hconnected
      cases hconnected
    | lost _ hattempts _ hlast hmisses =>
      refine ⟨alternating_concat.2 ⟨ha, nofun⟩, ?_, ?_⟩
      · rw [lastStatus_concat, hlast]
        rfl
      · rw [misses_concat, hmisses, hattempts]
        rfl

/-- A change of a peer tells one thing of it, which leads from where the monitor stood with it to
where it stands then. -/
theorem Standing.change (h : Standing m.maxRetries (m.connections.get? peer) events)
    (ha : Alternating events) (hchange : m.Change peer m' out) :
    ∃ e, toldOf peer out = [e] ∧ Alternating (events ++ [e]) ∧
      Standing m'.maxRetries (m'.connections.get? peer) (events ++ [e]) := by
  cases hchange with
  | @met c hunconnected _ hconnected hattempts =>
    have hlast : lastStatus events ≠ .connected := by
      rw [Ne, h.lastStatus_iff]
      exact Bool.eq_false_iff.1 hunconnected
    refine ⟨.peerConnected peer c, by simp [toldOf_tell, NodeEvent.peer?],
      alternating_concat.2 ⟨ha, fun heq => hlast (Option.some.inj heq).symm⟩, ?_⟩
    rw [get?_meet, if_pos rfl]
    refine .connected hconnected hattempts ?_ ?_
    · rw [lastStatus_concat]
      rfl
    · rw [misses_concat]
      rfl
  | @answered c d hc hconnected _ hstill hattempts =>
    refine ⟨.heartbeat peer d.metrics, by simp [toldOf_tell, NodeEvent.peer?],
      alternating_concat.2 ⟨ha, nofun⟩, ?_⟩
    rw [hc] at h
    cases h with
    | connected _ hrested hlast hmisses =>
      rw [get?_refresh, if_pos rfl]
      refine .connected hstill (hattempts.trans hrested) ?_ ?_
      · rw [lastStatus_concat, hlast]
        rfl
      · rw [misses_concat, hmisses]
        rfl
    | lost hlost =>
      rw [hconnected] at hlost
      cases hlost
  | @retried c d e hc hmiss hlt _ hlost hattempts =>
    rw [hc] at h
    obtain ⟨ha, hlast, hmisses⟩ := h.missed ha hmiss
    refine ⟨e, by simp [toldOf_tell, hmiss.peer?_eq], ha, ?_⟩
    rw [get?_retry, if_pos rfl]
    exact .lost hlost hattempts hlt hlast hmisses
  | @forgotten c e hc hmiss hle =>
    rw [hc] at h
    obtain ⟨ha, hlast, hmisses⟩ := h.missed ha hmiss
    refine ⟨e, by simp [toldOf_tell, hmiss.peer?_eq], ha, ?_⟩
    rw [get?_forget, if_pos rfl]
    -- The attempts counted never exceed the limit, so there were as many.
    refine .forgotten hlast (hmisses.trans ?_)
    rw [Nat.le_antisymm h.attempts_le hle]
    rfl

/-- A change tells one thing, and of its peer alone. -/
theorem Change.told (h : m.Change peer m' out) :
    ∃ e, ∀ q, toldOf q out = if peer = q then [e] else [] := by
  cases h with
  | @met c => exact ⟨.peerConnected peer c, fun q => by simp [toldOf_tell, NodeEvent.peer?]⟩
  | @answered _ d => exact ⟨.heartbeat peer d.metrics, fun q => by simp [toldOf_tell, NodeEvent.peer?]⟩
  | @retried _ _ e _ he => exact ⟨e, fun q => by simp [toldOf_tell, he.peer?_eq]⟩
  | @forgotten _ e _ he => exact ⟨e, fun q => by simp [toldOf_tell, he.peer?_eq]⟩

theorem Change.toldOf_of_ne (h : m.Change peer m' out) (hq : q ≠ peer) : toldOf q out = [] := by
  obtain ⟨e, htold⟩ := h.told
  rw [htold, if_neg hq.symm]

theorem Changes.standing (h : Changes peers m m' out) (hbooks : m.Bookkept) (past : List MonitorOutput)
    (peer : PeerId) (ha : Alternating (toldOf peer past))
    (hs : Standing m.maxRetries (m.connections.get? peer) (toldOf peer past)) :
    Alternating (toldOf peer (past ++ out)) ∧
      Standing m'.maxRetries (m'.connections.get? peer) (toldOf peer (past ++ out)) := by
  refine (h.keeps (I := fun m past => Alternating (toldOf peer past) ∧
    Standing m.maxRetries (m.connections.get? peer) (toldOf peer past)) ?_ hbooks past ⟨ha, hs⟩).2
  intro m q m' out past _ hchange hI
  rw [toldOf_append]
  by_cases hq : peer = q
  · subst hq
    obtain ⟨e, htold, ha, hs⟩ := hI.2.change hI.1 hchange
    rw [htold]
    exact ⟨ha, hs⟩
  · rw [hchange.toldOf_of_ne hq, hchange.get?_of_ne hq, hchange.maxRetries_eq, List.append_nil]
    exact hI

/-! ## One step -/

theorem Changes.toldOf_of_notMem (h : Changes peers m m' out) (hpeer : peer ∉ peers) :
    toldOf peer out = [] := by
  induction h with
  | nil => rfl
  | cons hchange _ ih =>
    obtain ⟨hne, hpeer⟩ := not_or.1 (mt List.mem_cons.2 hpeer)
    rw [toldOf_append, hchange.toldOf_of_ne hne, ih hpeer]
    rfl

/-- What happens to a peer while no peer is changed twice: nothing, or one change. -/
theorem Changes.single (h : Changes peers m m' out) (hnodup : peers.Nodup) (peer : PeerId) :
    (m'.connections.get? peer = m.connections.get? peer ∧ toldOf peer out = []) ∨
      ∃ (m₁ m₂ : Monitor) (out₁ : List MonitorOutput), m₁.maxRetries = m.maxRetries ∧
        m₁.connections.get? peer = m.connections.get? peer ∧ m₁.Change peer m₂ out₁ ∧
        m'.connections.get? peer = m₂.connections.get? peer ∧ toldOf peer out = toldOf peer out₁ := by
  induction h with
  | nil => exact .inl ⟨rfl, rfl⟩
  | @cons m m' m'' q peers out rest hchange hrest ih =>
    obtain ⟨hnew, hnodup⟩ := List.nodup_cons.1 hnodup
    by_cases hq : peer = q
    · subst hq
      refine .inr ⟨m, m', out, rfl, rfl, hchange, hrest.get?_of_notMem hnew, ?_⟩
      rw [toldOf_append, hrest.toldOf_of_notMem hnew, List.append_nil]
    · rw [toldOf_append, hchange.toldOf_of_ne hq, List.nil_append, ← hchange.get?_of_ne hq,
        ← hchange.maxRetries_eq]
      exact ih hnodup

/-- A step tells at most one thing of each peer. -/
theorem toldOf_step (h : m.Bookkept) : toldOf peer (m.step now i).2 = [] ∨
    ∃ e, toldOf peer (m.step now i).2 = [e] := by
  obtain ⟨peers, hnodup, hchanges⟩ := changes_step h now i
  obtain ⟨-, htold⟩ | ⟨m₁, m₂, out₁, -, -, hchange, -, htold⟩ := hchanges.single hnodup peer
  · exact .inl htold
  · obtain ⟨e, hout⟩ := hchange.told
    rw [htold, hout, if_pos rfl]
    exact .inr ⟨e, rfl⟩

/-- Who was not connected before a step and is after it was told to be connected. -/
theorem toldOf_step_of_connected (h : m.Bookkept) (hbefore : m.isConnected peer = false)
    (hafter : (m.step now i).1.isConnected peer = true) :
    ∃ c, (m.step now i).1.connections.get? peer = some c ∧
      toldOf peer (m.step now i).2 = [.peerConnected peer c] := by
  obtain ⟨peers, hnodup, hchanges⟩ := changes_step h now i
  obtain ⟨hget, -⟩ | ⟨m₁, m₂, out₁, -, hget, hchange, hget', htold⟩ := hchanges.single hnodup peer
  · rw [isConnected, hget, ← isConnected, hbefore] at hafter
    cases hafter
  · rw [isConnected, ← hget] at hbefore
    rw [isConnected, hget'] at hafter
    rw [hget', htold]
    cases hchange with
    | @met c => exact ⟨c, by rw [get?_meet, if_pos rfl], by simp [toldOf_tell, NodeEvent.peer?]⟩
    | answered hc hconnected =>
      rw [hc, Option.any_some, hconnected] at hbefore
      cases hbefore
    | retried _ _ _ _ hlost =>
      rw [get?_retry, if_pos rfl, Option.any_some, hlost] at hafter
      cases hafter
    | forgotten =>
      rw [get?_forget, if_pos rfl] at hafter
      cases hafter

/-! ## Who is found is connected -/

/-- What the monitor is told finds a peer: it is among those that can be reached, or the attempt to
reconnect to it that is pending came to success. -/
def Finds (m : Monitor) (peer : PeerId) : MonitorInput → Prop
  | .observed live => peer ∈ live
  | .heartbeat _ _ _ => False
  | .reconnect p number outcome => p = peer ∧ m.number? .reconnect peer = some number ∧ outcome = .ok ()

theorem isConnected_markConnected :
    (m.markConnected now q).1.isConnected peer = (peer = q || m.isConnected peer) := by
  by_cases hq : peer = q
  · subst hq
    simp [markConnected, startHeartbeat, isConnected, SortedMap.get?_insert_self,
      PeerConnection.isConnected]
  · simp [markConnected, startHeartbeat, isConnected, SortedMap.get?_insert, hq]

theorem isConnected_handleDisconnect :
    (m.handleDisconnect q).1.isConnected peer = (peer ≠ q && m.isConnected peer) := by
  unfold handleDisconnect isConnected
  dsimp only
  by_cases hq : peer = q
  · subst hq
    split
    · next hnone => simp [hnone]
    · split
      · simp [SortedMap.get?_erase]
      · simp [startReconnect, PeerConnection.isConnected]
  · split
    · simp [hq]
    · split
      · simp [SortedMap.get?_erase, hq]
      · simp [startReconnect, SortedMap.get?_insert, hq]

/-- Whoever is marked connected in one of the turns, or was connected before, is connected after them. -/
theorem isConnected_forEach_markConnected :
    (m.forEach (fun m q => m.markConnected now q) peers).1.isConnected peer =
      (peer ∈ peers || m.isConnected peer) := by
  induction peers generalizing m with
  | nil => simp [forEach]
  | cons q peers ih =>
    have hturn : (m.forEach (fun m q => m.markConnected now q) (q :: peers)).1 =
        ((m.markConnected now q).1.forEach (fun m q => m.markConnected now q) peers).1 := rfl
    rw [hturn, ih, isConnected_markConnected]
    by_cases hq : peer = q <;> simp [hq]

theorem isConnected_forEach_handleDisconnect :
    (m.forEach handleDisconnect peers).1.isConnected peer = (peer ∉ peers && m.isConnected peer) := by
  induction peers generalizing m with
  | nil => simp [forEach]
  | cons q peers ih =>
    have hturn : (m.forEach handleDisconnect (q :: peers)).1 =
        ((m.handleDisconnect q).1.forEach handleDisconnect peers).1 := rfl
    rw [hturn, ih, isConnected_handleDisconnect]
    by_cases hq : peer = q <;> simp [hq]

/-- Those that can be reached are connected after a look, and no others are. -/
theorem isConnected_observe {live : List PeerId} :
    (m.observe now live).1.isConnected peer = decide (peer ∈ live) := by
  generalize hseen : (SortedMap.ofList (live.map fun peer => (peer, ())) : SortedMap Unit) = seen
  have hlisted : peer ∈ seen.keys ↔ peer ∈ live := by
    rw [← hseen, SortedMap.mem_keys_ofList, List.map_map]
    simp
  have hmet : (m.forEach (fun m q => m.markConnected now q)
      (seen.keys.filter fun q => !m.isConnected q)).1.isConnected peer =
      (peer ∈ live || m.isConnected peer) := by
    rw [isConnected_forEach_markConnected, Bool.eq_iff_iff]
    by_cases hconnected : m.isConnected peer = true <;>
      simp [List.mem_filter, hlisted, hconnected]
  rw [observe, hseen]
  generalize m.forEach (fun m q => m.markConnected now q)
    (seen.keys.filter fun q => !m.isConnected q) = met at hmet
  dsimp only
  rw [isConnected_forEach_handleDisconnect]
  have hknown : met.1.isConnected peer = true → peer ∈ met.1.connections.keys := by
    intro hconnected
    obtain ⟨c, hc, -⟩ := exists_of_isConnected hconnected
    exact SortedMap.mem_keys_iff.2 ⟨c, hc⟩
  by_cases hlive : peer ∈ live
  · have hseen : seen.contains peer = true := SortedMap.contains_iff.2 (hlisted.2 hlive)
    simp [List.mem_filter, hseen, hmet, hlive]
  · have hunseen : seen.contains peer = false := by
      rw [← Bool.not_eq_true, SortedMap.contains_iff, hlisted]
      exact hlive
    cases hconnected : met.1.isConnected peer with
    | false => simp [hlive]
    | true => simp [List.mem_filter, hunseen, hconnected, hknown hconnected, hlive]

/-- A peer that is found is connected then. -/
theorem isConnected_step_of_finds (h : m.Bookkept) (hfinds : m.Finds peer i) :
    (m.step now i).1.isConnected peer = true := by
  cases i with
  | observed live =>
    rw [step, isConnected_observe]
    exact decide_eq_true hfinds
  | heartbeat => exact hfinds.elim
  | reconnect p number outcome =>
    obtain ⟨rfl, hnumber, rfl⟩ := hfinds
    obtain ⟨c, hc, hlost⟩ := exists_of_isLost
      ((h.inOrder p).retrying.1 (mem_reconnects_iff.2 ⟨number, hnumber⟩))
    rw [step, reconnect_of_pending hnumber hc hlost, isConnected_markConnected, decide_eq_true rfl,
      Bool.true_or]

/-! ## Whole runs -/

/-- What was told of a peer agrees with what the monitor keeps of it. -/
structure Agrees (maxRetries : Nat) (m : Monitor) (peer : PeerId) (events : List NodeEvent) : Prop where
  alternating : Alternating events
  connected : m.isConnected peer = true ↔ lastStatus events = .connected
  /-- Of the attempts to reconnect to a lost peer, all have failed but for the one that is pending. -/
  lost : ∀ c, m.connections.get? peer = some c → c.isConnected = false →
    ∃ failures, c.reconnectAttempts = failures + 1 ∧ failures < maxRetries ∧ misses events = (1, failures)
  unknown : m.connections.get? peer = none ↔ events = [] ∨ misses events = (1, maxRetries)

/-- What a step tells of a peer goes on from what was told of it before: the peer is forgotten exactly
when as many attempts have failed as there are, and is counted anew when it is found. -/
structure GoesOn (maxRetries : Nat) (m : Monitor) (peer : PeerId) (events : List NodeEvent) (now : Int64)
    (i : MonitorInput) : Prop where
  forgets : (m.connections.get? peer ≠ none ∧ (m.step now i).1.connections.get? peer = none) ↔
    misses events ≠ (1, maxRetries) ∧
      misses (events ++ toldOf peer (m.step now i).2) = (1, maxRetries)
  restarts : m.isConnected peer = false → m.Finds peer i →
    ∃ c, (m.step now i).1.connections.get? peer = some c ∧ c.isConnected = true ∧
      c.reconnectAttempts = 0 ∧ toldOf peer (m.step now i).2 = [.peerConnected peer c] ∧
      misses (events ++ toldOf peer (m.step now i).2) = (0, 0)

theorem Standing.agrees (h : Standing maxRetries (m.connections.get? peer) events)
    (ha : Alternating events) : Agrees maxRetries m peer events where
  alternating := ha
  connected := h.lastStatus_iff.symm
  lost c hc hlost := by
    rw [hc] at h
    cases h with
    | connected hconnected =>
      rw [hlost] at hconnected
      cases hconnected
    | lost _ hattempts hlt _ hmisses => exact ⟨_, hattempts, hlt, hmisses⟩
  unknown := h.unknown_iff

/-- Of a peer that is connected, nothing is counted. -/
theorem Standing.of_connected (h : Standing maxRetries (some c) events) (hc : c.isConnected = true) :
    c.reconnectAttempts = 0 ∧ misses events = (0, 0) := by
  cases h with
  | connected _ hattempts _ hmisses => exact ⟨hattempts, hmisses⟩
  | lost hlost =>
    rw [hc] at hlost
    cases hlost

/-- A single event does not say that a peer is gone. -/
theorem misses_single_ne (ha : Alternating [e]) (failures : Nat) : misses [e] ≠ (1, failures) := by
  rw [← List.nil_append [e]] at ha ⊢
  have hstatus : e.status? ≠ some .disconnected := (alternating_concat.1 ha).2
  rw [misses_concat, if_neg hstatus]
  split
  · nofun
  · intro heq
    cases congrArg Prod.fst heq

theorem Standing.forgets_iff {record' : Option PeerConnection} {told : List NodeEvent}
    (h : Standing maxRetries record events) (h' : Standing maxRetries record' (events ++ told))
    (ha : Alternating (events ++ told)) (htold : told = [] ∨ ∃ e, told = [e]) :
    (record ≠ none ∧ record' = none) ↔
      misses events ≠ (1, maxRetries) ∧ misses (events ++ told) = (1, maxRetries) := by
  rw [Ne, h.unknown_iff, h'.unknown_iff]
  constructor
  · rintro ⟨hknown, hunknown⟩
    obtain ⟨hne, hmisses⟩ := not_or.1 hknown
    exact ⟨hmisses, hunknown.resolve_left fun heq => hne (List.append_eq_nil_iff.1 heq).1⟩
  · rintro ⟨hne, hmisses⟩
    refine ⟨?_, .inr hmisses⟩
    rintro (rfl | heq)
    · -- One event more than none is too few to be forgotten.
      obtain rfl | ⟨e, rfl⟩ := htold
      · cases hmisses
      · exact misses_single_ne ha _ hmisses
    · exact hne heq

/-- What is told of a peer tells how things stand with it. Whatever a new monitor is told, a peer is told
to be connected and to be gone by turns, the former first, and is connected if that was told last. It is
forgotten exactly when, since it was last told to be connected, it was told to be gone and then as many
attempts to reconnect to have failed as there are; and if it is found before, the count starts anew. -/
theorem agrees_after (maxRetries : Nat) (inputs : List (Int64 × MonitorInput)) (peer : PeerId) :
    Agrees maxRetries ((new maxRetries).after inputs) peer (toldOf peer ((new maxRetries).done inputs)) ∧
      ∀ now i, GoesOn maxRetries ((new maxRetries).after inputs) peer
        (toldOf peer ((new maxRetries).done inputs)) now i := by
  obtain ⟨peers, hrun⟩ := changes_after (bookkept_new maxRetries) inputs
  have hbooks := hrun.bookkept (bookkept_new maxRetries)
  have hmax := hrun.maxRetries_eq
  obtain ⟨ha, hs⟩ := hrun.standing (bookkept_new maxRetries) [] peer trivial .unmet
  rw [List.nil_append] at ha hs
  generalize (new maxRetries).after inputs = m at *
  generalize (new maxRetries).done inputs = past at *
  rw [show m.maxRetries = maxRetries from hmax] at hs
  refine ⟨hs.agrees ha, fun now i => ?_⟩
  obtain ⟨_, -, hstep⟩ := changes_step hbooks now i
  obtain ⟨ha', hs'⟩ := hstep.standing hbooks _ peer ha (hmax.symm ▸ hs)
  rw [hstep.maxRetries_eq, toldOf_append, show m.maxRetries = maxRetries from hmax] at hs'
  rw [toldOf_append] at ha'
  refine ⟨hs.forgets_iff hs' ha' (toldOf_step hbooks), fun hunconnected hfinds => ?_⟩
  have hconnected : (m.step now i).1.isConnected peer = true := isConnected_step_of_finds hbooks hfinds
  obtain ⟨c, hc, htold⟩ := toldOf_step_of_connected hbooks hunconnected hconnected
  rw [isConnected_of_get? hc] at hconnected
  rw [hc] at hs'
  obtain ⟨hattempts, hmisses⟩ := hs'.of_connected hconnected
  exact ⟨c, hc, hconnected, hattempts, htold, hmisses⟩

end Monitor

end TaskSwarm
