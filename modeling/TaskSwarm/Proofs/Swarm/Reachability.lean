/-
Who is linked, and who sees it.

A network changes when a peer joins, goes on or off line or answers one more protocol, and
when a link is severed or restored. Of all that has happened only the last of each kind
counts: whether a peer is on line and whether a link is severed is what the last change said
that was about it (`isOnline_after`, `isSevered_after`), so nobody can be cut off twice and
nothing is forgotten while a peer is away. A peer finds out in four ways whom it can reach.
They look at different parts of the network, and come to the same for peers that have joined
(`views_agree`).
-/
import Mathlib.Data.List.Induction
import Mathlib.Tactic.TFAE
import TaskSwarm.Swarm.Network

set_option autoImplicit false

namespace TaskSwarm.Network

variable {n : Network} {a b c d : PeerId} {p : String}

/-! ## What may happen -/

/-- What may happen to a network. -/
inductive Change
  | join (a : PeerId)
  | setOnline (a : PeerId) (online : Bool)
  | disconnect (a b : PeerId)
  | reconnect (a b : PeerId)
  | offer (a : PeerId) (protocol : String)
  deriving DecidableEq

/-- A network after a change. -/
def step (n : Network) : Change → Network
  | .join a => n.join a
  | .setOnline a online => n.setOnline a online
  | .disconnect a b => n.disconnect a b
  | .reconnect a b => n.reconnect a b
  | .offer a protocol => n.offer a protocol

/-- The network after some changes. -/
def after (changes : List Change) : Network := changes.foldl step empty

theorem after_concat (changes : List Change) (x : Change) :
    after (changes ++ [x]) = (after changes).step x := by
  simp [after, List.foldl_append]

/-- What a change says of whether a peer is on line, if anything. -/
def Change.online? (a : PeerId) : Change → Option Bool
  | .join b => if b = a then some true else none
  | .setOnline b online => if b = a then some online else none
  | _ => none

/-- Whether two peers are the ends of a link, in either order. -/
def AreEnds (a b c d : PeerId) : Prop := (c = a ∧ d = b) ∨ (c = b ∧ d = a)

instance : Decidable (AreEnds a b c d) := inferInstanceAs (Decidable (_ ∨ _))

/-- What a change says of whether the link of two peers is severed, if anything. -/
def Change.severed? (a b : PeerId) : Change → Option Bool
  | .disconnect c d => if AreEnds a b c d then some true else none
  | .reconnect c d => if AreEnds a b c d then some false else none
  | _ => none

/-- The last that some changes say of something. -/
def latest? {α : Type} (about : Change → Option α) (changes : List Change) : Option α :=
  changes.reverse.findSome? about

theorem latest?_concat {α : Type} (about : Change → Option α) (changes : List Change) (x : Change) :
    latest? about (changes ++ [x]) = (about x).or (latest? about changes) := by
  rw [latest?, List.reverse_concat, List.findSome?_cons]
  cases about x <;> rfl

/-- Whether two peers are linked, going by what has happened: the last of each was that it is on line,
and the last of their link, if anything, that it was restored. -/
def AreLinked (changes : List Change) (a b : PeerId) : Prop :=
  a ≠ b ∧ latest? (Change.online? a) changes = some true ∧
    latest? (Change.online? b) changes = some true ∧
    latest? (Change.severed? a b) changes ≠ some true

instance (changes : List Change) (a b : PeerId) : Decidable (AreLinked changes a b) :=
  inferInstanceAs (Decidable (_ ∧ _ ∧ _ ∧ _))

/-! ## Links have no direction -/

theorem link_comm (a b : PeerId) : link a b = link b a := by
  unfold link
  split
  · next hab =>
    split
    · next hba => rw [String.le_antisymm hab hba]
    · rfl
  · next hab =>
    rw [if_pos ((String.le_total a b).resolve_left hab)]

theorem link_eq_iff : link c d = link a b ↔ AreEnds a b c d := by
  constructor
  · intro h
    -- Both links have their smaller end first, and either peer may be that.
    have hcases : ∀ x y : PeerId, link x y = (x, y) ∨ link x y = (y, x) := by
      intro x y
      unfold link
      split
      · exact Or.inl rfl
      · exact Or.inr rfl
    obtain hcd | hcd := hcases c d <;> obtain hab | hab := hcases a b <;> rw [hcd, hab] at h <;>
      obtain ⟨rfl, rfl⟩ := Prod.mk.inj h
    · exact Or.inl ⟨rfl, rfl⟩
    · exact Or.inr ⟨rfl, rfl⟩
    · exact Or.inr ⟨rfl, rfl⟩
    · exact Or.inl ⟨rfl, rfl⟩
  · rintro (⟨rfl, rfl⟩ | ⟨rfl, rfl⟩)
    · rfl
    · exact link_comm c d

theorem linked_comm (n : Network) (a b : PeerId) : n.linked a b = n.linked b a := by
  unfold linked
  rw [link_comm a b, Bool.and_right_comm (decide (a ≠ b))]
  simp only [ne_comm]

theorem disconnect_comm (n : Network) (a b : PeerId) : n.disconnect a b = n.disconnect b a := by
  unfold disconnect
  rw [link_comm a b]

theorem reconnect_comm (n : Network) (a b : PeerId) : n.reconnect a b = n.reconnect b a := by
  unfold reconnect
  rw [link_comm a b]

/-! ## One change -/

theorem isOnline_step (n : Network) (x : Change) (a : PeerId) :
    (n.step x).online.contains a = (x.online? a).getD (n.online.contains a) := by
  cases x with
  | join b =>
    simp only [step, join, Change.online?, SortedMap.contains, SortedMap.get?_insert, eq_comm (a := b)]
    split <;> rfl
  | setOnline b online =>
    simp only [step, setOnline, Change.online?, eq_comm (a := b)]
    cases online with
    | true =>
      simp only [if_true, SortedMap.contains, SortedMap.get?_insert]
      split <;> rfl
    | false =>
      simp only [Bool.false_eq_true, if_false, SortedMap.contains, SortedMap.get?_erase]
      split <;> rfl
  | disconnect | reconnect | offer => rfl

theorem isSevered_step (n : Network) (x : Change) (a b : PeerId) :
    (n.step x).severed.contains (link a b) =
      (x.severed? a b).getD (n.severed.contains (link a b)) := by
  have hkept : ∀ c d : PeerId, ¬AreEnds a b c d →
      (n.severed.filter (· ≠ link c d)).contains (link a b) = n.severed.contains (link a b) := by
    intro c d hends
    have hne : link a b ≠ link c d := fun heq => hends (link_eq_iff.1 heq.symm)
    simp [hne]
  cases x with
  | disconnect c d =>
    simp only [step, disconnect, Change.severed?, List.contains_cons]
    split
    · next hends => simp [link_eq_iff.2 hends]
    · next hends =>
      have hne : (link a b == link c d) = false :=
        beq_eq_false_iff_ne.2 fun heq => hends (link_eq_iff.1 heq.symm)
      rw [hne, Bool.false_or, hkept c d hends]
      rfl
  | reconnect c d =>
    simp only [step, reconnect, Change.severed?]
    split
    · next hends => simp [link_eq_iff.2 hends]
    · next hends => rw [hkept c d hends]; rfl
  | join | setOnline | offer => rfl

/-- Nobody who is known is forgotten. -/
theorem mem_known_step (n : Network) (x : Change) (h : a ∈ n.offered.keys) :
    a ∈ (n.step x).offered.keys := by
  rw [SortedMap.mem_keys_iff] at h ⊢
  obtain ⟨v, hv⟩ := h
  cases x with
  | join b | offer b _ =>
    simp only [step, join, offer, SortedMap.get?_insert]
    split
    · exact ⟨_, rfl⟩
    · exact ⟨v, hv⟩
  | setOnline | disconnect | reconnect => exact ⟨v, hv⟩

theorem mem_known_join (n : Network) (a : PeerId) : a ∈ (n.step (.join a)).offered.keys :=
  SortedMap.mem_keys_iff.2 ⟨_, SortedMap.get?_insert_self _ _ _⟩

/-- A protocol that is answered once is answered from then on, also by a peer that joins again. -/
theorem offers_step (n : Network) (x : Change) (h : n.offers b p = true) :
    (n.step x).offers b p = true := by
  unfold offers at h ⊢
  cases x with
  | join c =>
    simp only [step, join, SortedMap.get?_insert]
    split
    · next hcb => simpa [hcb] using h
    · exact h
  | offer c protocol =>
    simp only [step, offer, SortedMap.get?_insert]
    split
    · next hbc =>
      subst hbc
      simp only [Option.getD_some]
      split
      · exact h
      · simp only [List.contains_eq_mem, List.mem_append, decide_eq_true_eq] at h ⊢
        exact Or.inl h
    · exact h
  | setOnline | disconnect | reconnect => exact h

theorem offers_offer (n : Network) (b : PeerId) (p : String) :
    (n.step (.offer b p)).offers b p = true := by
  simp only [step, offer, offers, SortedMap.get?_insert_self, Option.getD_some]
  split
  · next hbefore => exact hbefore
  · simp

/-! ## All that has happened -/

/-- Where each change says something or leaves things as they are, the latest that says something
counts. -/
theorem eq_latest_after {f : Network → Bool} {said : Change → Option Bool} (hempty : f empty = false)
    (hstep : ∀ n x, f (n.step x) = (said x).getD (f n)) (changes : List Change) :
    f (after changes) = (latest? said changes).getD false := by
  induction changes using List.reverseRecOn with
  | nil => exact hempty
  | append_singleton changes x ih =>
    rw [after_concat, hstep, ih, latest?_concat]
    cases said x <;> rfl

/-- What one change brings about and no change undoes holds from then on. -/
theorem holds_after {P : Network → Prop} (hkept : ∀ n x, P n → P (n.step x)) {changes : List Change}
    {x : Change} (hmade : ∀ n : Network, P (n.step x)) (h : x ∈ changes) : P (after changes) := by
  induction changes using List.reverseRecOn with
  | nil => cases h
  | append_singleton changes y ih =>
    rw [after_concat]
    rcases List.mem_append.1 h with h | h
    · exact hkept _ y (ih h)
    · obtain rfl := List.mem_singleton.1 h
      exact hmade _

theorem isOnline_after (changes : List Change) (a : PeerId) :
    (after changes).online.contains a = (latest? (Change.online? a) changes).getD false :=
  eq_latest_after (f := fun n => n.online.contains a) rfl (fun n x => isOnline_step n x a) changes

theorem isSevered_after (changes : List Change) (a b : PeerId) :
    (after changes).severed.contains (link a b) =
      (latest? (Change.severed? a b) changes).getD false :=
  eq_latest_after (f := fun n => n.severed.contains (link a b)) rfl
    (fun n x => isSevered_step n x a b) changes

theorem mem_known_after {changes : List Change} (h : .join a ∈ changes) :
    a ∈ (after changes).offered.keys :=
  holds_after mem_known_step (fun n => mem_known_join n a) h

theorem offers_after {changes : List Change} (h : .offer b p ∈ changes) :
    (after changes).offers b p = true :=
  holds_after offers_step (fun n => offers_offer n b p) h

/-- Two peers are linked if what has happened says so. -/
theorem linked_after_iff (changes : List Change) (a b : PeerId) :
    (after changes).linked a b = true ↔ AreLinked changes a b := by
  have htrue : ∀ said : Option Bool, said.getD false = true ↔ said = some true := by
    intro said
    cases said <;> simp
  have hfalse : ∀ said : Option Bool, said.getD false = false ↔ said ≠ some true := by
    intro said
    cases said <;> simp
  simp only [linked, AreLinked, isOnline_after, isSevered_after, Bool.and_eq_true, decide_eq_true_eq,
    Bool.not_eq_true', htrue, hfalse, and_assoc]

/-! ## Four views -/

theorem mem_livePeers_iff (hb : b ∈ n.offered.keys) : b ∈ n.livePeers a ↔ n.linked a b = true := by
  simp [livePeers, hb]

theorem connectFault?_eq_none_iff : n.connectFault? a b = none ↔ n.linked a b = true := by
  unfold connectFault?
  split
  · next hlinked => simp [hlinked]
  · next hlinked => simp [hlinked]

theorem dialFault?_eq_none_iff (hp : n.offers b p = true) :
    n.dialFault? a b p = none ↔ n.linked a b = true := by
  unfold dialFault?
  cases hlinked : n.linked a b with
  | true => simp [hp]
  | false => simp

/-- Who can be reached is known. -/
theorem livePeers_subset_knownPeers (n : Network) (a : PeerId) : n.livePeers a ⊆ n.knownPeers a := by
  intro b hb
  obtain ⟨hknown, hlinked⟩ := List.mem_filter.1 hb
  refine List.mem_filter.2 ⟨hknown, ?_⟩
  simp only [linked, Bool.and_eq_true, decide_eq_true_eq] at hlinked
  exact decide_eq_true hlinked.1.1.1.symm

/-- Two peers that have joined see one network: whatever has happened, each of the ways in which one of them
finds out whether it can reach the other tells what the last changes tell. -/
theorem views_agree (changes : List Change) {a b : PeerId} (ha : .join a ∈ changes)
    (hb : .join b ∈ changes) :
    let n := after changes
    (n.linked a b = true ↔ AreLinked changes a b) ∧
      n.linked a b = n.linked b a ∧ (b ∈ n.livePeers a ↔ a ∈ n.livePeers b) ∧ n.linked a a = false ∧
      n.disconnect a b = n.disconnect b a ∧ n.reconnect a b = n.reconnect b a ∧
      (∀ p, .offer b p ∈ changes → [n.linked a b = true, b ∈ n.livePeers a,
        n.connectFault? a b = none, n.dialFault? a b p = none].TFAE) ∧
      (n.livePeers a).Pairwise (· < ·) ∧ (n.knownPeers a).Pairwise (· < ·) ∧
      n.livePeers a ⊆ n.knownPeers a ∧ (b ∈ n.knownPeers a ↔ a ≠ b) := by
  intro n
  have hknown : b ∈ n.offered.keys := mem_known_after hb
  have hlive : b ∈ n.livePeers a ↔ a ∈ n.livePeers b := by
    rw [mem_livePeers_iff hknown, mem_livePeers_iff (mem_known_after ha), linked_comm]
  refine ⟨linked_after_iff changes a b, linked_comm n a b, hlive, by simp [linked],
    disconnect_comm n a b, reconnect_comm n a b, ?_, ?_, ?_, livePeers_subset_knownPeers n a, ?_⟩
  · intro p hp
    tfae_have 2 ↔ 1 := mem_livePeers_iff hknown
    tfae_have 3 ↔ 1 := connectFault?_eq_none_iff
    tfae_have 4 ↔ 1 := dialFault?_eq_none_iff (offers_after hp)
    tfae_finish
  · exact n.offered.pairwise_keys.filter _
  · exact n.offered.pairwise_keys.filter _
  · simp [knownPeers, hknown, eq_comm (a := b)]

/-- A peer that was cut off twice and went away can be reached again once its link is restored, from whichever
end, and it has joined again. -/
theorem reached_after_rejoining :
    let changes : List Change := [.join "a", .join "b", .offer "b" "status", .disconnect "a" "b",
      .disconnect "b" "a", .setOnline "b" false, .reconnect "b" "a", .join "b"]
    .join "a" ∈ changes ∧ .join "b" ∈ changes ∧ .offer "b" "status" ∈ changes ∧
      "b" ∈ (after changes).livePeers "a" ∧ "a" ∈ (after changes).livePeers "b" ∧
      (after changes).connectFault? "a" "b" = none ∧
      (after changes).dialFault? "a" "b" "status" = none := by
  intro changes
  have ha : .join "a" ∈ changes := by decide
  have hb : .join "b" ∈ changes := by decide
  have hp : .offer "b" "status" ∈ changes := by decide
  obtain ⟨hlinked, -, hlive, -, -, -, hviews, -⟩ := views_agree changes ha hb
  have hreached : (after changes).linked "a" "b" = true := hlinked.2 (by decide)
  have hlisted : "b" ∈ (after changes).livePeers "a" := ((hviews "status" hp).out 0 1).1 hreached
  exact ⟨ha, hb, hp, hlisted, hlive.1 hlisted, ((hviews "status" hp).out 0 2).1 hreached,
    ((hviews "status" hp).out 0 3).1 hreached⟩

end TaskSwarm.Network
