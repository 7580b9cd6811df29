/-
The listing of a store.

A store is asked for its records, or for those in one state, and puts what it finds
in order of time, and of id where the times are the same. In which order it finds them
is left open: each entry of a map comes up once, and nothing more is asked of whoever
goes through it (`SortedMap.Enumerates`). What still makes the answer one and the same
is that every record is kept under its own id (`Keyed`), so that of two records one
precedes the other (`precedes_listing`); and a list in strict order is known by its
members (`eq_of_precedes`).
-/
import TaskSwarm.Proofs.Store.History

set_option autoImplicit false

namespace TaskSwarm

/-! ## The order of records -/

namespace Proposal

variable {p q : Proposal} {ps qs : List Proposal}

/-- Made earlier, or made at the same time and with the smaller id. -/
def Precedes (p q : Proposal) : Prop :=
  p.timestamp < q.timestamp ∨ (p.timestamp = q.timestamp ∧ p.id < q.id)

theorem Precedes.asymm (h : p.Precedes q) : ¬ q.Precedes p := by
  rintro (htime' | ⟨htime', hid'⟩)
  · obtain htime | ⟨htime, -⟩ := h
    · exact Int64.lt_asymm htime htime'
    · exact Int64.lt_irrefl (htime ▸ htime')
  · obtain htime | ⟨-, hid⟩ := h
    · exact Int64.lt_irrefl (htime' ▸ htime)
    · exact String.lt_asymm hid hid'

theorem not_precedes_self : ¬ p.Precedes p := fun h => h.asymm h

theorem nodup_of_precedes (h : ps.Pairwise Precedes) : ps.Nodup := by
  refine h.imp ?_
  rintro p _ hlt rfl
  exact not_precedes_self hlt

/-- A list in strict order is known by its members. -/
theorem eq_of_precedes (hps : ps.Pairwise Precedes) (hqs : qs.Pairwise Precedes)
    (h : ∀ p, p ∈ ps ↔ p ∈ qs) : ps = qs := by
  have hperm : ps.Perm qs :=
    (List.perm_ext_iff_of_nodup (nodup_of_precedes hps) (nodup_of_precedes hqs)).2 h
  exact hperm.eq_of_pairwise (fun _ _ _ _ hlt hgt => absurd hgt hlt.asymm) hps hqs

end Proposal

/-! ## Entries in no order -/

/-- The entries of a map, each once, in whatever order they come up. -/
structure SortedMap.Enumerates {α : Type} (m : SortedMap α) (es : List (String × α)) : Prop where
  nodup : (es.map Prod.fst).Nodup
  mem_iff : ∀ {k v}, (k, v) ∈ es ↔ m.get? k = some v

theorem SortedMap.enumerates_of_perm {α : Type} {m : SortedMap α} {es : List (String × α)}
    (h : es.Perm m.entries) : m.Enumerates es where
  nodup := (h.map Prod.fst).nodup_iff.2 m.nodup_keys
  mem_iff := h.mem_iff.trans mem_entries_iff

theorem SortedMap.enumerates_entries {α : Type} (m : SortedMap α) : m.Enumerates m.entries :=
  enumerates_of_perm (.refl m.entries)

namespace Store

variable {s : Store} {p q r : Proposal} {state : Option TaskState} {es : List (String × Proposal)}
  {records : List Proposal}

/-- Whether a store keeps a record. -/
def Keeps (s : Store) (p : Proposal) : Prop := ∃ k, s.proposals.get? k = some p

/-! ## What is listed -/

/-- The answer made of records that come up one after the other. -/
def listing (records : List Proposal) (state : Option TaskState) : List Proposal :=
  (records.filter fun p => state.all (· = p.state)).mergeSort listsBefore

theorem reply_list : (s.step (.list state)).2.1 = listing (s.proposals.entries.map Prod.snd) state := rfl

theorem perm_listing :
    (listing records state).Perm (records.filter fun p => state.all (· = p.state)) :=
  List.mergeSort_perm _ _

theorem mem_listing : p ∈ listing records state ↔ p ∈ records ∧ ∀ t ∈ state, p.state = t := by
  simp only [perm_listing.mem_iff, List.mem_filter, Option.all_eq_true, decide_eq_true_eq,
    Option.mem_def]
  exact and_congr_right fun _ => forall₂_congr fun t _ => eq_comm

/-! ## The order of the answer -/

theorem listsBefore_iff : listsBefore p q = true ↔
    p.timestamp < q.timestamp ∨ (p.timestamp = q.timestamp ∧ p.id ≤ q.id) := by
  simp only [listsBefore, Bool.or_eq_true, Bool.and_eq_true, decide_eq_true_eq]

theorem listsBefore_trans (h : listsBefore p q = true) (h' : listsBefore q r = true) :
    listsBefore p r = true := by
  rw [listsBefore_iff] at h h' ⊢
  obtain htime | ⟨htime, hid⟩ := h
  · obtain htime' | ⟨htime', -⟩ := h'
    · exact Or.inl (Int64.lt_trans htime htime')
    · exact Or.inl (htime' ▸ htime)
  · obtain htime' | ⟨htime', hid'⟩ := h'
    · exact Or.inl (htime ▸ htime')
    · exact Or.inr ⟨htime.trans htime', String.le_trans hid hid'⟩

theorem listsBefore_total (p q : Proposal) : (listsBefore p q || listsBefore q p) = true := by
  rw [Bool.or_eq_true, listsBefore_iff, listsBefore_iff]
  by_cases htime : p.timestamp = q.timestamp
  · obtain hle | hle := String.le_total p.id q.id
    · exact Or.inl (Or.inr ⟨htime, hle⟩)
    · exact Or.inr (Or.inr ⟨htime.symm, hle⟩)
  · obtain hlt | hlt := Int64.lt_or_lt_of_ne htime
    · exact Or.inl (Or.inl hlt)
    · exact Or.inr (Or.inl hlt)

/-- The order of a listing is strict between records that differ in id. -/
theorem precedes_of_listsBefore (h : listsBefore p q = true) (hid : p.id ≠ q.id) : p.Precedes q := by
  obtain htime | ⟨htime, hle⟩ := listsBefore_iff.1 h
  · exact Or.inl htime
  · exact Or.inr ⟨htime, String.not_le.1 fun hge => hid (String.le_antisymm hle hge)⟩

/-- Records with ids of their own are listed in strict order. -/
theorem precedes_listing (hids : (records.map Proposal.id).Nodup) :
    (listing records state).Pairwise Proposal.Precedes := by
  have hsorted : (listing records state).Pairwise fun p q => listsBefore p q = true :=
    @List.pairwise_mergeSort _ listsBefore (fun _ _ _ => listsBefore_trans) listsBefore_total _
  -- To sort is to put in another order, so no id comes up twice that did not before.
  have hdistinct : ((listing records state).map Proposal.id).Nodup := by
    refine (perm_listing.map Proposal.id).nodup_iff.2 (hids.sublist ?_)
    exact List.filter_sublist.map Proposal.id
  exact hsorted.imp₂ (fun _ _ => precedes_of_listsBefore) (List.pairwise_map.1 hdistinct)

/-! ## The answer of a store -/

/-- Records that come up under their ids have ids of their own. -/
theorem Keyed.nodup_ids (h : s.Keyed) (hes : s.proposals.Enumerates es) :
    ((es.map Prod.snd).map Proposal.id).Nodup := by
  have hids : (es.map Prod.snd).map Proposal.id = es.map Prod.fst := by
    rw [List.map_map]
    refine List.map_congr_left ?_
    rintro ⟨k, p⟩ hmem
    exact h k p (hes.mem_iff.1 hmem)
  rw [hids]
  exact hes.nodup

theorem mem_listing_of_enumerates (hes : s.proposals.Enumerates es) :
    p ∈ listing (es.map Prod.snd) state ↔ s.Keeps p ∧ ∀ t ∈ state, p.state = t := by
  have hmem : p ∈ es.map Prod.snd ↔ s.Keeps p := by
    simp only [List.mem_map, Prod.exists, exists_eq_right, Keeps, hes.mem_iff]
  rw [mem_listing, hmem]

/-- Two stores with the same records give one answer, in whatever order these come up in either. -/
theorem listing_congr {s' : Store} {es' : List (String × Proposal)} (hs : s.Keyed) (hs' : s'.Keyed)
    (hes : s.proposals.Enumerates es) (hes' : s'.proposals.Enumerates es')
    (h : ∀ p, s.Keeps p ↔ s'.Keeps p) :
    listing (es.map Prod.snd) state = listing (es'.map Prod.snd) state := by
  refine Proposal.eq_of_precedes (precedes_listing (hs.nodup_ids hes))
    (precedes_listing (hs'.nodup_ids hes')) fun p => ?_
  rw [mem_listing_of_enumerates hes, mem_listing_of_enumerates hes', h]

/-- A store lists what it keeps. Every record in the state asked for is in the answer once, nothing
else is, and the answer is in strict order. It does not depend on the order in which the
entries come up, nor on what led to the store: any other commands that lead to the same
records lead to the same answer. -/
theorem listing_exact (hs : s.Reached) (state : Option TaskState) :
    (∀ k p, s.proposals.get? k = some p → (∀ t ∈ state, p.state = t) →
        (s.step (.list state)).2.1.count p = 1) ∧
      (∀ p ∈ (s.step (.list state)).2.1,
        s.proposals.get? p.id = some p ∧ ∀ t ∈ state, p.state = t) ∧
      (s.step (.list state)).2.1.Pairwise Proposal.Precedes ∧
      (∀ es, s.proposals.Enumerates es →
        listing (es.map Prod.snd) state = (s.step (.list state)).2.1) ∧
      ∀ s' : Store, s'.Reached → (∀ p, s'.Keeps p ↔ s.Keeps p) →
        (s'.step (.list state)).2.1 = (s.step (.list state)).2.1 := by
  simp only [reply_list]
  have hentries := s.proposals.enumerates_entries
  have hmem : ∀ p, p ∈ listing (s.proposals.entries.map Prod.snd) state ↔
      s.Keeps p ∧ ∀ t ∈ state, p.state = t :=
    fun p => mem_listing_of_enumerates hentries
  have horder : (listing (s.proposals.entries.map Prod.snd) state).Pairwise Proposal.Precedes :=
    precedes_listing (hs.keyed.nodup_ids hentries)
  refine ⟨?_, ?_, horder, ?_, ?_⟩
  · intro k p hp hstate
    -- Strict order leaves no room for a second copy.
    have hlisted := (hmem p).2 ⟨⟨k, hp⟩, hstate⟩
    rw [(Proposal.nodup_of_precedes horder).count, if_pos hlisted]
  · intro p hp
    obtain ⟨⟨k, hk⟩, hstate⟩ := (hmem p).1 hp
    obtain rfl := hs.keyed k p hk
    exact ⟨hk, hstate⟩
  · intro es hes
    -- The store itself goes through its entries by key; that is one order among others.
    exact listing_congr hs.keyed hs.keyed hes hentries fun _ => Iff.rfl
  · intro s' hs' hsame
    exact listing_congr hs'.keyed hs.keyed s'.proposals.enumerates_entries hentries hsame

/-- Three proposals are taken in, two of them made at the same time. -/
def takingIn : List Command :=
  [.insert (.new "b" "p" .default 0), .insert (.new "a" "p" .default 0),
    .insert (.new "c" "p" .default (-5))]

/-- The same proposals are taken in the other way round, and one more comes and goes. -/
def takingInBackwards : List Command :=
  [.insert (.new "c" "p" .default (-5)), .insert (.new "d" "p" .default 7),
    .insert (.new "a" "p" .default 0), .remove "d", .insert (.new "b" "p" .default 0)]

theorem listed_either_way :
    (((empty .default 100).after takingIn).step (.list none)).2.1 =
        [.new "c" "p" .default (-5), .new "a" "p" .default 0, .new "b" "p" .default 0] ∧
      (((empty .default 200).after takingInBackwards).step (.list none)).2.1 =
        [.new "c" "p" .default (-5), .new "a" "p" .default 0, .new "b" "p" .default 0] := by
  obtain ⟨-, -, -, hany, hsame⟩ := listing_exact ⟨.default, 100, takingIn, rfl⟩ none
  -- The entries come up as they are to be listed, and there is nothing left to sort.
  have hperm : [("c", .new "c" "p" .default (-5)), ("a", .new "a" "p" .default 0),
      ("b", .new "b" "p" .default 0)].Perm ((empty .default 100).after takingIn).proposals.entries := by
    decide
  have hsorted : listing [.new "c" "p" .default (-5), .new "a" "p" .default 0,
      .new "b" "p" .default 0] none = _ := List.mergeSort_of_pairwise (by decide)
  have hlisted := (hany _ (SortedMap.enumerates_of_perm hperm)).symm.trans hsorted
  have hproposals : ((empty .default 200).after takingInBackwards).proposals =
      ((empty .default 100).after takingIn).proposals := by
    decide
  refine ⟨hlisted, (hsame _ ⟨.default, 200, takingInBackwards, rfl⟩ fun p => ?_).trans hlisted⟩
  rw [Keeps, hproposals, Keeps]

end Store

end TaskSwarm
