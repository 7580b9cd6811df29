/-
The books of the monitor.

A monitor keeps a record of each peer it has met, and beside it either a heartbeat or an
attempt to reconnect, under a number nobody else goes by (`Bookkept`). Whatever it is told,
it takes one peer after the other, and as long as the books are in order only four things
can happen to a peer: it is there and was not before, it answers, it cannot be reached and
there is to be another attempt, or it cannot be reached and is forgotten (`Change`). A step
comes to some of these, one after the other (`changes_step`), and each leaves the
books in order (`Bookkept.change`), so they always are (`bookkept_after`).

Nothing here depends on the order in which the peers of one step are taken. What is said of
whole runs later on is drawn from `Changes.keeps`, and looks at the four changes alone.
-/
import TaskSwarm.Health.Monitor

set_option autoImplicit false

namespace TaskSwarm

/-! ## Maps that change twice under one key -/

namespace SortedMap

variable {α : Type} {m : SortedMap α} {k : String} {v w : α}

theorem insert_insert : (m.insert k v).insert k w = m.insert k w := by
  apply ext_get?
  intro j
  simp only [get?_insert]
  split <;> rfl

theorem erase_erase : (m.erase k).erase k = m.erase k := by
  apply ext_get?
  intro j
  simp only [get?_erase]
  split <;> rfl

theorem erase_insert : (m.insert k v).erase k = m.erase k := by
  apply ext_get?
  intro j
  simp only [get?_insert, get?_erase]
  split <;> rfl

theorem insert_erase : (m.erase k).insert k v = m.insert k v := by
  apply ext_get?
  intro j
  simp only [get?_insert, get?_erase]
  split <;> rfl

theorem erase_of_none (h : m.get? k = none) : m.erase k = m := by
  apply ext_get?
  intro j
  rw [get?_erase]
  split
  · next hj => rw [hj, h]
  · rfl

theorem insert_of_get? (h : m.get? k = some v) : m.insert k v = m := by
  apply ext_get?
  intro j
  rw [get?_insert]
  split
  · next hj => rw [hj, h]
  · rfl

theorem mem_keys_insert {j : String} : j ∈ (m.insert k v).keys ↔ j = k ∨ j ∈ m.keys := by
  rw [mem_keys_iff, mem_keys_iff, get?_insert]
  by_cases hj : j = k <;> simp [hj]

theorem mem_keys_foldl_insert {es : List (String × α)} :
    k ∈ (es.foldl (fun m e => m.insert e.1 e.2) m).keys ↔ k ∈ m.keys ∨ k ∈ es.map Prod.fst := by
  induction es generalizing m with
  | nil => simp
  | cons e es ih =>
    rw [List.foldl_cons, ih, mem_keys_insert, List.map_cons, List.mem_cons, or_assoc, or_left_comm]

/-- The names in a list are the keys of the map of it. -/
theorem mem_keys_ofList {es : List (String × α)} : k ∈ (ofList es).keys ↔ k ∈ es.map Prod.fst := by
  have hempty : k ∉ (empty : SortedMap α).keys := List.not_mem_nil
  rw [ofList, mem_keys_foldl_insert, or_iff_right hempty]

theorem contains_iff : m.contains k = true ↔ k ∈ m.keys := by
  rw [contains, Option.isSome_iff_exists, mem_keys_iff]

end SortedMap

/-- What goes on by itself for a peer and reports back to the monitor. -/
inductive ProbeKind
  | heartbeat | reconnect
  deriving DecidableEq

namespace Monitor

/-! ## The books -/

/-- The number of what is going on for a peer. -/
def number? (m : Monitor) : ProbeKind → PeerId → Option Nat
  | .heartbeat, peer => m.heartbeats.get? peer
  | .reconnect, peer => m.reconnects.get? peer

/-- Whether a peer is known and not connected. -/
def isLost (m : Monitor) (peer : PeerId) : Bool :=
  (m.connections.get? peer).any fun c => !c.isConnected

/-- What is kept of a peer is in order: there is a heartbeat exactly if it is connected and an attempt
to reconnect exactly if it is lost, and attempts are counted for lost peers only, up to the limit. -/
structure InOrder (m : Monitor) (peer : PeerId) : Prop where
  named : ∀ c, m.connections.get? peer = some c → c.peer = peer
  beating : peer ∈ m.heartbeats.keys ↔ m.isConnected peer = true
  retrying : peer ∈ m.reconnects.keys ↔ m.isLost peer = true
  rested : ∀ c, m.connections.get? peer = some c → c.isConnected = true → c.reconnectAttempts = 0
  tried : ∀ c, m.connections.get? peer = some c → c.isConnected = false →
    1 ≤ c.reconnectAttempts ∧ c.reconnectAttempts ≤ m.maxRetries

/-- The numbers in use have been given out, each to one. -/
structure Numbered (m : Monitor) : Prop where
  given : ∀ kind peer number, m.number? kind peer = some number → number ≤ m.generation
  distinct : ∀ kind kind' peer peer' number, m.number? kind peer = some number →
    m.number? kind' peer' = some number → kind = kind' ∧ peer = peer'

/-- The books are in order. -/
structure Bookkept (m : Monitor) : Prop where
  inOrder : ∀ peer, m.InOrder peer
  numbered : m.Numbered

variable {m m' m'' : Monitor} {peer q : PeerId} {c d : PeerConnection} {now : Int64} {kind : ProbeKind}
  {peers peers' : List PeerId} {out rest : List MonitorOutput}

theorem mem_heartbeats_iff : peer ∈ m.heartbeats.keys ↔ ∃ number, m.number? .heartbeat peer = some number :=
  SortedMap.mem_keys_iff

theorem mem_reconnects_iff : peer ∈ m.reconnects.keys ↔ ∃ number, m.number? .reconnect peer = some number :=
  SortedMap.mem_keys_iff

theorem isConnected_of_get? (hc : m.connections.get? peer = some c) :
    m.isConnected peer = c.isConnected := by
  rw [isConnected, hc]
  rfl

theorem isLost_of_get? (hc : m.connections.get? peer = some c) : m.isLost peer = !c.isConnected := by
  rw [isLost, hc]
  rfl

theorem exists_of_isConnected (h : m.isConnected peer = true) :
    ∃ c, m.connections.get? peer = some c ∧ c.isConnected = true := by
  cases hc : m.connections.get? peer with
  | none => simp [isConnected, hc] at h
  | some c => exact ⟨c, rfl, by rwa [isConnected_of_get? hc] at h⟩

theorem exists_of_isLost (h : m.isLost peer = true) :
    ∃ c, m.connections.get? peer = some c ∧ c.isConnected = false := by
  cases hc : m.connections.get? peer with
  | none => simp [isLost, hc] at h
  | some c => exact ⟨c, rfl, by rwa [isLost_of_get? hc, Bool.not_eq_true'] at h⟩

/-- Nobody tries to reconnect to a peer that is connected. -/
theorem InOrder.reconnect_of_connected (h : m.InOrder peer) (hc : m.connections.get? peer = some c)
    (hconnected : c.isConnected = true) : m.number? .reconnect peer = none := by
  rw [Option.eq_none_iff_forall_ne_some]
  intro number hnumber
  have hlost := h.retrying.1 (mem_reconnects_iff.2 ⟨number, hnumber⟩)
  rw [isLost_of_get? hc, hconnected] at hlost
  cases hlost

/-- A peer that is lost has no heartbeat. -/
theorem InOrder.heartbeat_of_lost (h : m.InOrder peer) (hc : m.connections.get? peer = some c)
    (hlost : c.isConnected = false) : m.number? .heartbeat peer = none := by
  rw [Option.eq_none_iff_forall_ne_some]
  intro number hnumber
  have hconnected := h.beating.1 (mem_heartbeats_iff.2 ⟨number, hnumber⟩)
  rw [isConnected_of_get? hc, hlost] at hconnected
  cases hconnected

/-- What is kept of a peer is in order wherever the same is kept of it. -/
theorem InOrder.congr (h : m.InOrder peer) (hmax : m'.maxRetries = m.maxRetries)
    (hconnections : m'.connections.get? peer = m.connections.get? peer)
    (hnumber : ∀ kind, m'.number? kind peer = m.number? kind peer) : m'.InOrder peer where
  named := by
    rw [hconnections]
    exact h.named
  beating := by
    rw [mem_heartbeats_iff, hnumber, ← mem_heartbeats_iff, isConnected, hconnections]
    exact h.beating
  retrying := by
    rw [mem_reconnects_iff, hnumber, ← mem_reconnects_iff, isLost, hconnections]
    exact h.retrying
  rested := by
    rw [hconnections]
    exact h.rested
  tried := by
    rw [hconnections, hmax]
    exact h.tried

/-! A peer that is connected, one that is lost and one that is not known: -/

theorem inOrder_of_connected (hc : m.connections.get? peer = some c) (hname : c.peer = peer)
    (hconnected : c.isConnected = true) (hattempts : c.reconnectAttempts = 0) {number : Nat}
    (hheartbeat : m.number? .heartbeat peer = some number)
    (hreconnect : m.number? .reconnect peer = none) : m.InOrder peer where
  named := by
    rintro d hd
    cases hc.symm.trans hd
    exact hname
  beating := by
    rw [mem_heartbeats_iff, hheartbeat, isConnected_of_get? hc, hconnected]
    simp
  retrying := by
    rw [mem_reconnects_iff, hreconnect, isLost_of_get? hc, hconnected]
    simp
  rested := by
    rintro d hd -
    cases hc.symm.trans hd
    exact hattempts
  tried := by
    rintro d hd hlost
    cases hc.symm.trans hd
    rw [hconnected] at hlost
    cases hlost

theorem inOrder_of_lost (hc : m.connections.get? peer = some c) (hname : c.peer = peer)
    (hlost : c.isConnected = false) (hpos : 1 ≤ c.reconnectAttempts)
    (hle : c.reconnectAttempts ≤ m.maxRetries) {number : Nat}
    (hheartbeat : m.number? .heartbeat peer = none)
    (hreconnect : m.number? .reconnect peer = some number) : m.InOrder peer where
  named := by
    rintro d hd
    cases hc.symm.trans hd
    exact hname
  beating := by
    rw [mem_heartbeats_iff, hheartbeat, isConnected_of_get? hc, hlost]
    simp
  retrying := by
    rw [mem_reconnects_iff, hreconnect, isLost_of_get? hc, hlost]
    simp
  rested := by
    rintro d hd hconnected
    cases hc.symm.trans hd
    rw [hlost] at hconnected
    cases hconnected
  tried := by
    rintro d hd -
    cases hc.symm.trans hd
    exact ⟨hpos, hle⟩

theorem inOrder_of_none (hc : m.connections.get? peer = none)
    (hnumber : ∀ kind, m.number? kind peer = none) : m.InOrder peer where
  named := by
    rw [hc]
    nofun
  beating := by
    rw [mem_heartbeats_iff, hnumber, isConnected, hc]
    simp
  retrying := by
    rw [mem_reconnects_iff, hnumber, isLost, hc]
    simp
  rested := by
    rw [hc]
    nofun
  tried := by
    rw [hc]
    nofun

theorem bookkept_new (maxRetries : Nat) : (new maxRetries).Bookkept where
  inOrder _ := inOrder_of_none rfl fun kind => by cases kind <;> rfl
  numbered :=
    { given := fun kind _ _ h => by cases kind <;> cases h
      distinct := fun kind _ _ _ _ h _ => by cases kind <;> cases h }

/-! ## What can happen to a peer -/

/-- The record of a peer is another. -/
def refresh (m : Monitor) (peer : PeerId) (c : PeerConnection) : Monitor :=
  { m with connections := m.connections.insert peer c }

/-- A peer is connected, and has a heartbeat of its own. -/
def meet (m : Monitor) (peer : PeerId) (c : PeerConnection) : Monitor :=
  { m with
    connections := m.connections.insert peer c
    heartbeats := m.heartbeats.insert peer (m.generation + 1)
    reconnects := m.reconnects.erase peer
    generation := m.generation + 1 }

/-- A peer is lost, and has an attempt to reconnect of its own. -/
def retry (m : Monitor) (peer : PeerId) (c : PeerConnection) : Monitor :=
  { m with
    connections := m.connections.insert peer c
    heartbeats := m.heartbeats.erase peer
    reconnects := m.reconnects.insert peer (m.generation + 1)
    generation := m.generation + 1 }

/-- Nothing is known of a peer. -/
def forget (m : Monitor) (peer : PeerId) : Monitor :=
  { m with
    connections := m.connections.erase peer
    heartbeats := m.heartbeats.erase peer
    reconnects := m.reconnects.erase peer }

section

variable (m : Monitor) (peer q : PeerId) (c : PeerConnection) (kind : ProbeKind)

theorem get?_refresh : (m.refresh peer c).connections.get? q =
    if q = peer then some c else m.connections.get? q := SortedMap.get?_insert ..

theorem get?_meet : (m.meet peer c).connections.get? q =
    if q = peer then some c else m.connections.get? q := SortedMap.get?_insert ..

theorem get?_retry : (m.retry peer c).connections.get? q =
    if q = peer then some c else m.connections.get? q := SortedMap.get?_insert ..

theorem get?_forget : (m.forget peer).connections.get? q =
    if q = peer then none else m.connections.get? q := SortedMap.get?_erase ..

theorem number?_refresh : (m.refresh peer c).number? kind q = m.number? kind q := by
  cases kind <;> rfl

theorem number?_meet : (m.meet peer c).number? kind q =
    if q = peer then (if kind = .heartbeat then some (m.generation + 1) else none)
    else m.number? kind q := by
  cases kind
  · exact SortedMap.get?_insert ..
  · exact SortedMap.get?_erase ..

theorem number?_retry : (m.retry peer c).number? kind q =
    if q = peer then (if kind = .reconnect then some (m.generation + 1) else none)
    else m.number? kind q := by
  cases kind
  · exact SortedMap.get?_erase ..
  · exact SortedMap.get?_insert ..

theorem number?_forget : (m.forget peer).number? kind q =
    if q = peer then none else m.number? kind q := by
  cases kind <;> exact SortedMap.get?_erase ..

end

/-- What is told of a peer that cannot be reached: that it is gone, or that one more attempt failed. -/
inductive Misses (peer : PeerId) (c : PeerConnection) : NodeEvent → Prop
  | gone : c.isConnected = true → Misses peer c (.peerDisconnected peer c.reconnectAttempts)
  | failed {text : String} : c.isConnected = false → Misses peer c (.reconnectFailed peer text)

/-- What can happen to one peer, and what is done about it. -/
inductive Change (m : Monitor) (peer : PeerId) : Monitor → List MonitorOutput → Prop
  /-- It is there, and was not before. -/
  | met {c : PeerConnection} : m.isConnected peer = false → c.peer = peer → c.isConnected = true →
      c.reconnectAttempts = 0 →
      Change m peer (m.meet peer c)
        [.startHeartbeat peer (m.generation + 1), .tell (.peerConnected peer c)]
  /-- It answers. -/
  | answered {c d : PeerConnection} : m.connections.get? peer = some c → c.isConnected = true →
      d.peer = c.peer → d.isConnected = true → d.reconnectAttempts = c.reconnectAttempts →
      Change m peer (m.refresh peer d) [.tell (.heartbeat peer d.metrics)]
  /-- It cannot be reached, and there is to be another attempt. -/
  | retried {c d : PeerConnection} {e : NodeEvent} : m.connections.get? peer = some c →
      Misses peer c e → c.reconnectAttempts < m.maxRetries → d.peer = c.peer →
      d.isConnected = false → d.reconnectAttempts = c.reconnectAttempts + 1 →
      Change m peer (m.retry peer d) [.tell e, .startReconnect peer (m.generation + 1)]
  /-- It cannot be reached, and is forgotten. -/
  | forgotten {c : PeerConnection} {e : NodeEvent} : m.connections.get? peer = some c →
      Misses peer c e → m.maxRetries ≤ c.reconnectAttempts → Change m peer (m.forget peer) [.tell e]

/-- Some changes, one for each of some peers, and all that is done about them. -/
inductive Changes : List PeerId → Monitor → Monitor → List MonitorOutput → Prop
  | nil {m : Monitor} : Changes [] m m []
  | cons {m m' m'' : Monitor} {peer : PeerId} {peers : List PeerId} {out rest : List MonitorOutput} :
      m.Change peer m' out → Changes peers m' m'' rest → Changes (peer :: peers) m m'' (out ++ rest)

theorem Change.changes (h : m.Change peer m' out) : Changes [peer] m m' out := by
  rw [← List.append_nil out]
  exact .cons h .nil

theorem Changes.append (h : Changes peers m m' out) (h' : Changes peers' m' m'' rest) :
    Changes (peers ++ peers') m m'' (out ++ rest) := by
  induction h with
  | nil => exact h'
  | cons hchange _ ih =>
    rw [List.append_assoc]
    exact .cons hchange (ih h')

/-- What happens to a peer leaves all others alone. -/
theorem Change.get?_of_ne (h : m.Change peer m' out) (hq : q ≠ peer) :
    m'.connections.get? q = m.connections.get? q := by
  cases h <;> simp only [get?_refresh, get?_meet, get?_retry, get?_forget, if_neg hq]

theorem Change.number?_of_ne (h : m.Change peer m' out) (hq : q ≠ peer) :
    m'.number? kind q = m.number? kind q := by
  cases h <;> simp only [number?_refresh, number?_meet, number?_retry, number?_forget, if_neg hq]

theorem Change.maxRetries_eq (h : m.Change peer m' out) : m'.maxRetries = m.maxRetries := by
  cases h <;> rfl

/-- Who is not among those that change is kept as before. -/
theorem Changes.get?_of_notMem (h : Changes peers m m' out) (hq : q ∉ peers) :
    m'.connections.get? q = m.connections.get? q := by
  induction h with
  | nil => rfl
  | cons hchange _ ih =>
    obtain ⟨hne, hq⟩ := not_or.1 (mt List.mem_cons.2 hq)
    rw [ih hq, hchange.get?_of_ne hne]

theorem Changes.number?_of_notMem (h : Changes peers m m' out) (hq : q ∉ peers) :
    m'.number? kind q = m.number? kind q := by
  induction h with
  | nil => rfl
  | cons hchange _ ih =>
    obtain ⟨hne, hq⟩ := not_or.1 (mt List.mem_cons.2 hq)
    rw [ih hq, hchange.number?_of_ne hne]

/-! ## Each change leaves the books in order -/

/-- Numbers stay or are given up, but for the next one, which may be given out. -/
theorem Numbered.of_next (h : m.Numbered) (kind : ProbeKind) (peer : PeerId)
    (hgeneration : m.generation ≤ m'.generation)
    (hnext : ∀ kind' q number, m'.number? kind' q = some number → m.number? kind' q = some number ∨
      (m.generation < m'.generation ∧ number = m'.generation ∧ kind' = kind ∧ q = peer)) :
    m'.Numbered := by
  constructor
  · intro kind' q number hnumber
    obtain hold | ⟨-, rfl, -⟩ := hnext _ _ _ hnumber
    · exact Nat.le_trans (h.given _ _ _ hold) hgeneration
    · exact Nat.le_refl _
  · intro kind₁ kind₂ q₁ q₂ number h₁ h₂
    obtain hold₁ | ⟨hlt, rfl, rfl, rfl⟩ := hnext _ _ _ h₁
    · obtain hold₂ | ⟨hlt, rfl, -⟩ := hnext _ _ _ h₂
      · exact h.distinct _ _ _ _ _ hold₁ hold₂
      -- What has just been given out was in no use before.
      · have hle := h.given _ _ _ hold₁
        omega
    · obtain hold₂ | ⟨-, -, rfl, rfl⟩ := hnext _ _ _ h₂
      · have hle := h.given _ _ _ hold₂
        omega
      · exact ⟨rfl, rfl⟩

/-- A peer gives up its numbers, and is given the next one. -/
theorem Numbered.of_given (h : m.Numbered) {kind : ProbeKind} {peer : PeerId}
    (hgeneration : m'.generation = m.generation + 1)
    (hgiven : ∀ kind' q, m'.number? kind' q =
      if q = peer then (if kind' = kind then some (m.generation + 1) else none)
      else m.number? kind' q) : m'.Numbered := by
  refine h.of_next kind peer (hgeneration ▸ Nat.le_succ _) ?_
  intro kind' q number hnumber
  rw [hgiven] at hnumber
  split at hnumber
  · next hq =>
    split at hnumber
    · next hkind =>
      obtain rfl := Option.some.inj hnumber
      exact Or.inr ⟨hgeneration ▸ Nat.lt_succ_self _, hgeneration.symm, hkind, hq⟩
    · cases hnumber
  · exact Or.inl hnumber

theorem Numbered.change (h : m.Numbered) (hchange : m.Change peer m' out) : m'.Numbered := by
  cases hchange with
  | met => exact h.of_given rfl fun _ _ => by rw [number?_meet]
  | answered =>
    refine h.of_next .heartbeat peer (Nat.le_refl _) ?_
    intro kind' q number hnumber
    rw [number?_refresh] at hnumber
    exact Or.inl hnumber
  | retried => exact h.of_given rfl fun _ _ => by rw [number?_retry]
  | forgotten =>
    refine h.of_next .heartbeat peer (Nat.le_refl _) ?_
    intro kind' q number hnumber
    rw [number?_forget] at hnumber
    split at hnumber
    · cases hnumber
    · exact Or.inl hnumber

/-- What is kept of the peer itself is in order after the change. -/
theorem InOrder.change (h : m.InOrder peer) (hchange : m.Change peer m' out) : m'.InOrder peer := by
  cases hchange with
  | @met c hunconnected hname hconnected hattempts =>
    have hc : (m.meet peer c).connections.get? peer = some c := by rw [get?_meet, if_pos rfl]
    exact inOrder_of_connected hc hname hconnected hattempts (by rw [number?_meet, if_pos rfl, if_pos rfl])
      (by rw [number?_meet, if_pos rfl, if_neg nofun])
  | @answered c d hc hconnected hname hstill hattempts =>
    have hd : (m.refresh peer d).connections.get? peer = some d := by rw [get?_refresh, if_pos rfl]
    have hbeating : peer ∈ m.heartbeats.keys := by rw [h.beating, isConnected_of_get? hc, hconnected]
    obtain ⟨number, hnumber⟩ := mem_heartbeats_iff.1 hbeating
    refine inOrder_of_connected hd (hname.trans (h.named c hc)) hstill
      (hattempts.trans (h.rested c hc hconnected)) (by rw [number?_refresh, hnumber]) ?_
    rw [number?_refresh]
    exact h.reconnect_of_connected hc hconnected
  | @retried c d e hc hmisses hlt hname hlost hattempts =>
    have hd : (m.retry peer d).connections.get? peer = some d := by rw [get?_retry, if_pos rfl]
    have hle : d.reconnectAttempts ≤ (m.retry peer d).maxRetries := by
      rw [hattempts]
      exact hlt
    exact inOrder_of_lost hd (hname.trans (h.named c hc)) hlost (by omega) hle
      (by rw [number?_retry, if_pos rfl, if_neg nofun]) (by rw [number?_retry, if_pos rfl, if_pos rfl])
  | forgotten =>
    exact inOrder_of_none (by rw [get?_forget, if_pos rfl]) fun kind => by rw [number?_forget, if_pos rfl]

theorem Bookkept.change (h : m.Bookkept) (hchange : m.Change peer m' out) : m'.Bookkept where
  inOrder q := by
    by_cases hq : q = peer
    · subst hq
      exact (h.inOrder q).change hchange
    · exact (h.inOrder q).congr hchange.maxRetries_eq (hchange.get?_of_ne hq)
        fun kind => hchange.number?_of_ne hq
  numbered := h.numbered.change hchange

/-- What every change keeps, beside the books, many changes keep. -/
theorem Changes.keeps {I : Monitor → List MonitorOutput → Prop}
    (hstep : ∀ {m peer m' out past}, Bookkept m → m.Change peer m' out → I m past → I m' (past ++ out))
    (h : Changes peers m m' out) (hbooks : m.Bookkept) (past : List MonitorOutput) (hI : I m past) :
    m'.Bookkept ∧ I m' (past ++ out) := by
  induction h generalizing past with
  | nil =>
    rw [List.append_nil]
    exact ⟨hbooks, hI⟩
  | cons hchange _ ih =>
    rw [← List.append_assoc]
    exact ih (hbooks.change hchange) _ (hstep hbooks hchange hI)

theorem Changes.bookkept (h : Changes peers m m' out) (hbooks : m.Bookkept) : m'.Bookkept :=
  (h.keeps (I := fun _ _ => True) (fun _ _ _ => trivial) hbooks [] trivial).1

theorem Changes.maxRetries_eq (h : Changes peers m m' out) : m'.maxRetries = m.maxRetries := by
  induction h with
  | nil => rfl
  | cons hchange _ ih => rw [ih, hchange.maxRetries_eq]

/-! ## A step is some changes -/

theorem change_markConnected (h : m.Bookkept) (hunconnected : m.isConnected peer = false) :
    m.Change peer (m.markConnected now peer).1 (m.markConnected now peer).2 := by
  have hname : ((m.connections.get? peer).getD (.new peer now)).peer = peer := by
    cases hc : m.connections.get? peer with
    | none => rfl
    | some c => exact (h.inOrder peer).named c hc
  exact .met hunconnected hname rfl rfl

/-- What is kept when a peer turns out not to be there, before anything is done about it. -/
def unreached (m : Monitor) (peer : PeerId) (c : PeerConnection) : Monitor :=
  { m with connections := m.connections.insert peer c, reconnects := m.reconnects.erase peer }

/-- Who cannot be reached is forgotten, or tried again. -/
theorem handleDisconnect_unreached :
    (m.unreached peer c).handleDisconnect peer =
      if m.maxRetries ≤ c.reconnectAttempts then
        (m.forget peer, if c.isConnected then [.tell (.peerDisconnected peer c.reconnectAttempts)] else [])
      else
        (m.retry peer { c with status := .disconnected, reconnectAttempts := c.reconnectAttempts + 1 },
          (if c.isConnected then [.tell (.peerDisconnected peer c.reconnectAttempts)] else []) ++
            [.startReconnect peer (m.generation + 1)]) := by
  have hc : (m.unreached peer c).connections.get? peer = some c := SortedMap.get?_insert_self ..
  unfold handleDisconnect
  simp only [hc]
  simp only [unreached, startReconnect, SortedMap.erase_insert, SortedMap.insert_insert,
    SortedMap.insert_erase]
  split <;> rfl

section

variable (hc : m.connections.get? peer = some c) (hname : d.peer = c.peer)
  (hattempts : d.reconnectAttempts = c.reconnectAttempts)

include hc hname hattempts

/-- A connected peer that is not there is told to be gone. -/
theorem change_gone (hconnected : c.isConnected = true) (hstill : d.isConnected = true) :
    m.Change peer ((m.unreached peer d).handleDisconnect peer).1
      ((m.unreached peer d).handleDisconnect peer).2 := by
  rw [handleDisconnect_unreached, hstill, hattempts]
  split
  · next hle => exact .forgotten hc (.gone hconnected) hle
  · next hlt => exact .retried hc (.gone hconnected) (Nat.lt_of_not_le hlt) hname rfl rfl

/-- A lost peer that is not there either is told to have failed once more. -/
theorem change_failed (hlost : c.isConnected = false) (hstill : d.isConnected = false) {text : String} :
    m.Change peer ((m.unreached peer d).handleDisconnect peer).1
      (.tell (.reconnectFailed peer text) :: ((m.unreached peer d).handleDisconnect peer).2) := by
  rw [handleDisconnect_unreached, hstill, hattempts]
  split
  · next hle => exact .forgotten hc (.failed hlost) hle
  · next hlt => exact .retried hc (.failed hlost) (Nat.lt_of_not_le hlt) hname rfl rfl

end

theorem change_handleDisconnect (h : m.Bookkept) (hconnected : m.isConnected peer = true) :
    m.Change peer (m.handleDisconnect peer).1 (m.handleDisconnect peer).2 := by
  obtain ⟨c, hc, hconnected⟩ := exists_of_isConnected hconnected
  have hreconnect : m.reconnects.get? peer = none := (h.inOrder peer).reconnect_of_connected hc hconnected
  have hsame : m.unreached peer c = m := by
    rw [unreached, SortedMap.insert_of_get? hc, SortedMap.erase_of_none hreconnect]
  have hchange := change_gone (d := c) hc rfl rfl hconnected hconnected
  rwa [hsame] at hchange

/-- What came of something that was replaced is not looked at. -/
theorem heartbeat_of_stale {number : Nat} {latency : Option Nat}
    (h : m.number? .heartbeat peer ≠ some number) : m.heartbeat now peer number latency = (m, []) :=
  if_pos h

theorem reconnect_of_stale {number : Nat} {outcome : Outcome Unit}
    (h : m.number? .reconnect peer ≠ some number) : m.reconnect now peer number outcome = (m, []) :=
  if_pos h

/-- What came of the heartbeat that is going, for a peer that is connected. -/
theorem heartbeat_of_going {number : Nat} (hnumber : m.number? .heartbeat peer = some number)
    (hc : m.connections.get? peer = some c) (hconnected : c.isConnected = true) (latency : Option Nat) :
    m.heartbeat now peer number latency =
      match latency with
      | some latency =>
        (m.refresh peer { c with
          metrics := c.metrics.recordHeartbeat true (some latency), lastSeen := now },
          [.tell (.heartbeat peer (c.metrics.recordHeartbeat true (some latency)))])
      | none =>
        (m.refresh peer { c with metrics := c.metrics.recordHeartbeat false none }).handleDisconnect peer := by
  have hgoing : m.heartbeats.get? peer = some number := hnumber
  unfold heartbeat
  rw [if_neg (not_not_intro hgoing)]
  simp only [hc, hconnected, Bool.not_true, Bool.false_eq_true, if_false]
  cases latency <;> rfl

theorem changes_heartbeat (h : m.Bookkept) {number : Nat} {latency : Option Nat} :
    ∃ peers, peers.Nodup ∧
      Changes peers m (m.heartbeat now peer number latency).1 (m.heartbeat now peer number latency).2 := by
  by_cases hnumber : m.number? .heartbeat peer = some number
  · -- Who has a heartbeat is connected.
    obtain ⟨c, hc, hconnected⟩ := exists_of_isConnected
      ((h.inOrder peer).beating.1 (mem_heartbeats_iff.2 ⟨number, hnumber⟩))
    refine ⟨[peer], by simp, ?_⟩
    rw [heartbeat_of_going hnumber hc hconnected]
    cases latency with
    | some latency =>
      exact (Change.answered (d := { c with
        metrics := c.metrics.recordHeartbeat true (some latency), lastSeen := now })
        hc hconnected rfl hconnected rfl).changes
    | none =>
      have hreconnect : m.reconnects.get? peer = none :=
        (h.inOrder peer).reconnect_of_connected hc hconnected
      have hchange := change_gone (d := { c with metrics := c.metrics.recordHeartbeat false none })
        hc rfl rfl hconnected hconnected
      rw [unreached, SortedMap.erase_of_none hreconnect] at hchange
      exact hchange.changes
  · refine ⟨[], List.nodup_nil, ?_⟩
    rw [heartbeat_of_stale hnumber]
    exact .nil

/-- What came of the attempt that is pending, for a peer that is lost. -/
theorem reconnect_of_pending {number : Nat} (hnumber : m.number? .reconnect peer = some number)
    (hc : m.connections.get? peer = some c) (hlost : c.isConnected = false) (outcome : Outcome Unit) :
    m.reconnect now peer number outcome =
      match outcome with
      | .ok () => m.markConnected now peer
      | .error e => (((m.unreached peer c).handleDisconnect peer).1,
          .tell (.reconnectFailed peer e.message) :: ((m.unreached peer c).handleDisconnect peer).2) := by
  have hpending : m.reconnects.get? peer = some number := hnumber
  unfold reconnect
  rw [if_neg (not_not_intro hpending)]
  simp only [hc, hlost, Bool.false_eq_true, if_false]
  cases outcome with
  | ok u => simp only [markConnected, SortedMap.erase_erase]
  | error e => simp only [unreached, SortedMap.insert_of_get? hc]

theorem changes_reconnect (h : m.Bookkept) {number : Nat} {outcome : Outcome Unit} :
    ∃ peers, peers.Nodup ∧
      Changes peers m (m.reconnect now peer number outcome).1 (m.reconnect now peer number outcome).2 := by
  by_cases hnumber : m.number? .reconnect peer = some number
  · -- Who is being reconnected to is lost.
    obtain ⟨c, hc, hlost⟩ := exists_of_isLost
      ((h.inOrder peer).retrying.1 (mem_reconnects_iff.2 ⟨number, hnumber⟩))
    refine ⟨[peer], by simp, ?_⟩
    rw [reconnect_of_pending hnumber hc hlost]
    cases outcome with
    | ok u =>
      have hunconnected : m.isConnected peer = false := by rw [isConnected_of_get? hc, hlost]
      exact (change_markConnected h hunconnected).changes
    | error e => exact (change_failed hc rfl rfl hlost hlost).changes
  · refine ⟨[], List.nodup_nil, ?_⟩
    rw [reconnect_of_stale hnumber]
    exact .nil

/-- Doing something for one peer after the other is a change of each, if it is one of any peer that is
connected, or of any that is not. -/
theorem changes_forEach {f : Monitor → PeerId → Monitor × List MonitorOutput} {b : Bool}
    (hf : ∀ {m peer}, Bookkept m → m.isConnected peer = b → m.Change peer (f m peer).1 (f m peer).2)
    (hnodup : peers.Nodup) (h : m.Bookkept) (hpeers : ∀ peer ∈ peers, m.isConnected peer = b) :
    Changes peers m (m.forEach f peers).1 (m.forEach f peers).2 := by
  induction peers generalizing m with
  | nil => exact .nil
  | cons peer peers ih =>
    obtain ⟨hnew, hnodup⟩ := List.nodup_cons.1 hnodup
    have hchange := hf h (hpeers peer List.mem_cons_self)
    refine .cons hchange (ih hnodup (h.change hchange) fun q hq => ?_)
    have hne : q ≠ peer := fun heq => hnew (heq ▸ hq)
    rw [isConnected, hchange.get?_of_ne hne]
    exact hpeers q (List.mem_cons_of_mem _ hq)

/-- Those that are there and were not known to be change, and those that were and are not. -/
theorem changes_observe (h : m.Bookkept) (now : Int64) (live : List PeerId) :
    ∃ peers, peers.Nodup ∧ (∀ peer, peer ∈ peers ↔ (m.isConnected peer = true ↔ peer ∉ live)) ∧
      Changes peers m (m.observe now live).1 (m.observe now live).2 := by
  generalize hseen : (SortedMap.ofList (live.map fun peer => (peer, ())) : SortedMap Unit) = seen
  have hlisted : ∀ peer, peer ∈ seen.keys ↔ peer ∈ live := by
    intro peer
    rw [← hseen, SortedMap.mem_keys_ofList, List.map_map]
    simp
  have hnodup := (SortedMap.nodup_keys seen).filter fun peer => !m.isConnected peer
  have hmet := changes_forEach (f := fun m peer => m.markConnected now peer) (b := false)
    (fun h hunconnected => change_markConnected h hunconnected) hnodup h (by simp)
  have hfound : ∀ peer, peer ∈ seen.keys.filter (fun peer => !m.isConnected peer) ↔
      peer ∈ live ∧ m.isConnected peer = false := by
    intro peer
    rw [List.mem_filter, hlisted, Bool.not_eq_true']
  generalize hm' : m.forEach (fun m peer => m.markConnected now peer)
    (seen.keys.filter fun peer => !m.isConnected peer) = met at hmet
  have hnodup' := (SortedMap.nodup_keys met.1.connections).filter fun peer =>
    met.1.isConnected peer && !seen.contains peer
  have hlost := changes_forEach (f := handleDisconnect) (b := true)
    (fun h hconnected => change_handleDisconnect h hconnected) hnodup' (hmet.bookkept h)
    (by simp +contextual)
  have hgone : ∀ peer, peer ∈ met.1.connections.keys.filter
      (fun peer => met.1.isConnected peer && !seen.contains peer) ↔
      peer ∉ live ∧ m.isConnected peer = true := by
    intro peer
    rw [List.mem_filter, Bool.and_eq_true, Bool.not_eq_true', ← Bool.not_eq_true,
      SortedMap.contains_iff, hlisted]
    -- Who is not there was not among those found, so it is kept as before.
    by_cases hlive : peer ∈ live
    · simp [hlive]
    · have hsame : met.1.isConnected peer = m.isConnected peer := by
        rw [isConnected, hmet.get?_of_notMem (fun hmem => hlive ((hfound peer).1 hmem).1), isConnected]
      rw [hsame]
      refine ⟨fun hmem => ⟨hlive, hmem.2.1⟩, fun hconnected => ⟨?_, hconnected.2, hlive⟩⟩
      obtain ⟨c, hc, -⟩ := exists_of_isConnected (hsame.trans hconnected.2)
      exact SortedMap.mem_keys_iff.2 ⟨c, hc⟩
  refine ⟨_, List.nodup_append.2 ⟨hnodup, hnodup', ?_⟩, fun peer => ?_, ?_⟩
  · -- The former are there, and the latter are not.
    rintro peer hpeer _ hpeer' rfl
    exact ((hgone peer).1 hpeer').1 ((hfound peer).1 hpeer).1
  · rw [List.mem_append, hfound, hgone]
    by_cases hlive : peer ∈ live <;> simp [hlive]
  · have hobserve : m.observe now live = ((met.1.forEach handleDisconnect
        (met.1.connections.keys.filter fun peer => met.1.isConnected peer && !seen.contains peer)).1,
        met.2 ++ (met.1.forEach handleDisconnect
        (met.1.connections.keys.filter fun peer => met.1.isConnected peer && !seen.contains peer)).2) := by
      rw [← hm', ← hseen]
      rfl
    rw [hobserve]
    exact hmet.append hlost

/-- A step is at most one change of each peer. -/
theorem changes_step (h : m.Bookkept) (now : Int64) (i : MonitorInput) :
    ∃ peers, peers.Nodup ∧ Changes peers m (m.step now i).1 (m.step now i).2 := by
  cases i with
  | observed live =>
    obtain ⟨peers, hnodup, -, hchanges⟩ := changes_observe h _ _
    exact ⟨peers, hnodup, hchanges⟩
  | heartbeat peer number latency => exact changes_heartbeat h
  | reconnect peer number outcome => exact changes_reconnect h

/-! ## Runs -/

/-- The monitor after all it was told, each time at some time of its own clock. -/
def after (m : Monitor) : List (Int64 × MonitorInput) → Monitor
  | [] => m
  | (now, i) :: rest => (m.step now i).1.after rest

/-- All it has done about what it was told, the earliest first. -/
def done (m : Monitor) : List (Int64 × MonitorInput) → List MonitorOutput
  | [] => []
  | (now, i) :: rest => (m.step now i).2 ++ (m.step now i).1.done rest

theorem changes_after (h : m.Bookkept) (inputs : List (Int64 × MonitorInput)) :
    ∃ peers, Changes peers m (m.after inputs) (m.done inputs) := by
  induction inputs generalizing m with
  | nil => exact ⟨[], .nil⟩
  | cons input inputs ih =>
    obtain ⟨peers, -, hstep⟩ := changes_step h input.1 input.2
    obtain ⟨peers', hrest⟩ := ih (hstep.bookkept h)
    exact ⟨peers ++ peers', hstep.append hrest⟩

/-- The books are always in order: whatever a new monitor is told, the peers with a heartbeat are those
that are connected and the peers with an attempt to reconnect are those that are lost, so each known
peer has one of the two and none has both; attempts are counted from one to the limit for lost peers
only; and the numbers in use have been given out, each to one. -/
theorem bookkept_after (maxRetries : Nat) (inputs : List (Int64 × MonitorInput)) :
    ((new maxRetries).after inputs).Bookkept ∧
      ((new maxRetries).after inputs).maxRetries = maxRetries ∧
      ∀ peer ∈ ((new maxRetries).after inputs).connections.keys,
        ¬ (peer ∈ ((new maxRetries).after inputs).heartbeats.keys ↔
          peer ∈ ((new maxRetries).after inputs).reconnects.keys) := by
  obtain ⟨peers, hchanges⟩ := changes_after (bookkept_new maxRetries) inputs
  have hbooks := hchanges.bookkept (bookkept_new maxRetries)
  refine ⟨hbooks, hchanges.maxRetries_eq, fun peer hpeer => ?_⟩
  obtain ⟨c, hc⟩ := SortedMap.mem_keys_iff.1 hpeer
  rw [(hbooks.inOrder peer).beating, (hbooks.inOrder peer).retrying, isConnected_of_get? hc,
    isLost_of_get? hc]
  cases c.isConnected <;> simp

end Monitor

end TaskSwarm
