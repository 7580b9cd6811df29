/-
What a store keeps true of its records.

Three fields of a record tell whose lock it is under. The lock law says that they
are there together, and exactly while the record is LOCKED (`Proposal.LockLaw`).
Each way into LOCKED and out of it sets them by code of its own, so the law is
restored change by change: `Command.lockLeft` names the lock that a change leaves
behind, and `Changes.isUnder` says that the record is then under that lock and no
other. A whole history adds nothing to this, since a record only changes in those
ways (`Lawful.after`).
-/
import TaskSwarm.Proofs.Store.History

set_option autoImplicit false

namespace TaskSwarm

namespace Proposal

variable {p q : Proposal} {lock : Option Lock}

/-! ## The lock of a record -/

/-- The three parts of a lock are there exactly while the state is LOCKED. -/
structure LockLaw (p : Proposal) : Prop where
  locked : p.state = .locked →
    p.lockId.isSome = true ∧ p.lockedBy.isSome = true ∧ p.lockTime.isSome = true
  free : p.state ≠ .locked → p.lockId = none ∧ p.lockedBy = none ∧ p.lockTime = none

/-- The record is under this lock, or it is under none and is not LOCKED. -/
structure IsUnder (p : Proposal) (lock : Option Lock) : Prop where
  state : p.state = .locked ↔ lock.isSome = true
  token : p.lockId = lock.map Lock.token
  holder : p.lockedBy = lock.map Lock.holder
  since : p.lockTime = lock.map Lock.since

theorem IsUnder.lockLaw (h : p.IsUnder lock) : p.LockLaw := by
  constructor
  · intro hstate
    have hsome := h.state.1 hstate
    rw [h.token, h.holder, h.since]
    simp only [Option.isSome_map, hsome, and_self]
  · intro hstate
    have hnone : lock = none := Option.not_isSome_iff_eq_none.1 fun hsome => hstate (h.state.2 hsome)
    rw [h.token, h.holder, h.since, hnone]
    exact ⟨rfl, rfl, rfl⟩

theorem LockLaw.isUnder (h : p.LockLaw) : ∃ lock, p.IsUnder lock := by
  by_cases hstate : p.state = .locked
  · obtain ⟨htoken, hholder, hsince⟩ := h.locked hstate
    obtain ⟨token, htoken⟩ := Option.isSome_iff_exists.1 htoken
    obtain ⟨holder, hholder⟩ := Option.isSome_iff_exists.1 hholder
    obtain ⟨since, hsince⟩ := Option.isSome_iff_exists.1 hsince
    exact ⟨some ⟨token, holder, since⟩, by simp [hstate], htoken, hholder, hsince⟩
  · obtain ⟨htoken, hholder, hsince⟩ := h.free hstate
    exact ⟨none, by simp [hstate], htoken, hholder, hsince⟩

/-- A fresh proposal is under no lock. -/
theorem isUnder_new (id : String) (proposer : PeerId) (spec : TaskSpec) (timestamp : Int64) :
    (new id proposer spec timestamp).IsUnder none where
  state := by simp [new]
  token := rfl
  holder := rfl
  since := rfl

/-- A patch has no part in the lock. -/
theorem isUnder_apply {patch : Patch} : (patch.apply p).IsUnder lock ↔ p.IsUnder lock :=
  ⟨fun h => ⟨h.state, h.token, h.holder, h.since⟩, fun h => ⟨h.state, h.token, h.holder, h.since⟩⟩

end Proposal

/-- The lock on a record that a command has changed; before, it was under the lock given. -/
def Command.lockLeft (c : Command) (former : Option Lock) : Option Lock :=
  match c with
  | .transition _ target patch => if target = .locked then patch.lock else none
  | .lock r now => some ⟨r.token, r.requester, now⟩
  | .unlock _ => none
  | _ => former

namespace Proposal

variable {p q : Proposal} {lock : Option Lock} {target : TaskState} {patch : Patch}

theorem isUnder_of_moved (h : Store.moved p target patch = .ok q) :
    q.IsUnder (if target = .locked then patch.lock else none) := by
  obtain ⟨-, ⟨lock, rfl, hlock, rfl⟩ | ⟨htarget, rfl⟩⟩ := Store.moved_eq_ok_iff.1 h
  · rw [if_pos rfl, hlock, isUnder_apply]
    exact ⟨by simp, rfl, rfl, rfl⟩
  · rw [if_neg htarget, isUnder_apply]
    exact ⟨by simp [unlocked, htarget], rfl, rfl, rfl⟩

/-- A record that has been changed is under the lock that the command leaves, whatever it was under
before, unless only its progress was noted. -/
theorem Changes.isUnder_or_progressed {timeout : Int64} {k : String} {c : Command}
    (h : p.Changes timeout k c q) : (∀ former, q.IsUnder (c.lockLeft former)) ∨
      ∃ progress, c = .setProgress k progress ∧ q = { p with progress := progress } := by
  cases h with
  | moved h => exact Or.inl fun _ => isUnder_of_moved h
  | progressed => exact Or.inr ⟨_, rfl, rfl⟩
  | locked _ h =>
    obtain ⟨-, rfl⟩ := grant_eq_ok_iff.1 h
    exact Or.inl fun _ => ⟨by simp [Command.lockLeft], rfl, rfl, rfl⟩
  | unlocked _ h =>
    have hfree := isUnder_of_moved (release_eq_ok_iff.1 h).2
    rw [if_neg (by decide)] at hfree
    exact Or.inl fun _ => hfree

theorem Changes.isUnder {timeout : Int64} {k : String} {c : Command}
    (h : p.Changes timeout k c q) (hp : p.IsUnder lock) : q.IsUnder (c.lockLeft lock) := by
  obtain hleft | ⟨progress, rfl, rfl⟩ := h.isUnder_or_progressed
  · exact hleft lock
  · exact ⟨hp.state, hp.token, hp.holder, hp.since⟩

/-- A note of progress has no part in the lock. -/
theorem lockLaw_progressed {progress : Option Json} :
    { p with progress := progress }.LockLaw ↔ p.LockLaw :=
  ⟨fun h => ⟨h.locked, h.free⟩, fun h => ⟨h.locked, h.free⟩⟩

/-- What has just been moved is under the lock that the move leaves, whatever it was before. -/
theorem Changes.isUnder_of_moves {timeout : Int64} {k : String} {c : Command} {answer : c.Reply}
    (h : p.Changes timeout k c q) (hmoves : c.moves? answer = some k) : q.IsUnder (c.lockLeft none) := by
  obtain hleft | ⟨progress, rfl, -⟩ := h.isUnder_or_progressed
  · exact hleft none
  · cases hmoves

/-- A record is LOCKED under a token exactly if that is the token of its lock. -/
theorem IsUnder.token_iff (h : p.IsUnder lock) {token : String} :
    p.state = .locked ∧ p.lockId = some token ↔ ∃ l, lock = some l ∧ l.token = token := by
  rw [h.state, h.token]
  cases lock <;> simp

end Proposal

/-! ## The records of a store -/

namespace Store

variable {s : Store} {k : String} {p : Proposal} {c : Command} {cs : List Command}

/-- Every record is kept under its id, and keeps the lock law. -/
structure Lawful (s : Store) : Prop where
  id : ∀ {k p}, s.proposals.get? k = some p → p.id = k
  lockLaw : ∀ {k p}, s.proposals.get? k = some p → p.LockLaw

theorem lawful_empty (capabilities : Capabilities) (timeout : Int64) :
    (empty capabilities timeout).Lawful where
  id h := by cases h
  lockLaw h := by cases h

theorem Lawful.step (h : s.Lawful) (hinsert : ∀ p, c = .insert p → p.LockLaw) :
    (s.step c).1.Lawful where
  id hr := Keyed.step (fun _ _ => h.id) _ _ hr
  lockLaw hr := by
    obtain hsame | ⟨hc, -⟩ | ⟨p, hp, hchanges⟩ := origin_of_step hr
    · exact h.lockLaw hsame
    · exact hinsert _ hc
    · obtain ⟨lock, hunder⟩ := (h.lockLaw hp).isUnder
      exact (hchanges.isUnder hunder).lockLaw

theorem Lawful.after (h : s.Lawful) (hinsert : ∀ p, Command.insert p ∈ cs → p.LockLaw) :
    (s.after cs).Lawful := by
  induction cs generalizing s with
  | nil => exact h
  | cons c cs ih =>
    apply ih
    · exact h.step fun p hc => hinsert p (hc ▸ List.mem_cons_self)
    · intro p hp
      exact hinsert p (List.mem_cons_of_mem c hp)

/-- Where only lawful proposals come in, every record is lawful, and what a proposal was made of stays
until it is removed. -/
theorem records_lawful {capabilities : Capabilities} {timeout : Int64}
    (hinsert : ∀ p, Command.insert p ∈ cs → p.LockLaw) :
    (∀ k r, ((empty capabilities timeout).after cs).proposals.get? k = some r →
        r.id = k ∧ r.LockLaw) ∧
      ∀ before p during, cs = before ++ .insert p :: during →
        (((empty capabilities timeout).after before).step (.insert p)).2.1 = true →
        Command.remove p.id ∉ during →
        ∃ r, ((empty capabilities timeout).after cs).proposals.get? p.id = some r ∧
          Proposal.Kin p r := by
  constructor
  · intro k r hr
    have hlawful := (lawful_empty capabilities timeout).after hinsert
    exact ⟨hlawful.id hr, hlawful.lockLaw hr⟩
  · intro before p during heq hkept hremove
    rw [heq, after_append, after_cons]
    exact kept_of_not_removed (get?_of_inserted hkept) hremove

/-- A proposal is taken in, and its lock is granted, given back and granted again. -/
def relocking : List Command :=
  [.insert (.new "t" "p" .default 0), .lock ⟨"t", "x", "a"⟩ 0, .unlock ⟨"t", "x"⟩,
    .lock ⟨"t", "y", "b"⟩ 1]

theorem relocking_lawful :
    (∀ p, Command.insert p ∈ relocking → p.LockLaw) ∧
      ∃ r, ((empty .default 100).after relocking).proposals.get? "t" = some r ∧
        r.state = .locked ∧ r.LockLaw ∧ Proposal.Kin (.new "t" "p" .default 0) r := by
  have hinsert : ∀ p, Command.insert p ∈ relocking → p.LockLaw := by
    intro p hp
    obtain rfl : p = .new "t" "p" .default 0 := by simpa [relocking] using hp
    exact (Proposal.isUnder_new ..).lockLaw
  obtain ⟨hlawful, hkept⟩ := @records_lawful relocking .default 100 hinsert
  obtain ⟨r, hkept, hkin⟩ := hkept [] _ _ rfl rfl (by simp)
  have hr : ((empty .default 100).after relocking).proposals.get? "t" = some r := hkept
  have hstate : (((empty .default 100).after relocking).proposals.get? "t").map Proposal.state =
      some .locked := rfl
  rw [hr] at hstate
  exact ⟨hinsert, r, hr, Option.some.inj hstate, (hlawful "t" r hr).2, hkin⟩

end Store

end TaskSwarm
