/-
What commands do to one record.

A store keeps one record under each id, and a command changes at most one of
them. `Changes` lists the ways: a move along the lifecycle, a note of progress,
a lock granted, a lock given back. `step_of_some` and `step_of_none` say that
nothing else happens to a record except that it is inserted or removed, so
whatever these four keep is kept for as long as the record is there. In
particular its id, its proposer and its task never change (`Changes.kin`).
Seen from afterwards, a record was there already, came in, or is such a change
of what was there (`origin_of_step`).
-/
import TaskSwarm.Store.Basic

set_option autoImplicit false

namespace TaskSwarm

/-! ## Moves -/

namespace Store

variable {p q : Proposal} {target : TaskState} {patch : Patch}

/-- A move follows the lifecycle. Entering LOCKED takes a lock, and any other state is free of one. -/
theorem moved_eq_ok_iff : moved p target patch = .ok q ↔
    p.state.canBecome target = true ∧
      ((∃ lock, target = .locked ∧ patch.lock = some lock ∧
          q = patch.apply { p with state := .locked, lockId := some lock.token,
                                   lockTime := some lock.since, lockedBy := some lock.holder }) ∨
        (target ≠ .locked ∧ q = patch.apply { p with state := target }.unlocked)) := by
  by_cases htarget : target = .locked
  · -- Entering LOCKED goes by the lock that comes with the patch.
    subst htarget
    cases hlock : patch.lock with
    | none => simp [moved, hlock, bind, Except.bind]
    | some lock =>
      have hmoved : moved p .locked patch = (p.lockFor lock).map patch.apply := by
        simp only [moved, hlock]
        cases p.lockFor lock <;> rfl
      rw [hmoved]
      cases hlockFor : p.lockFor lock with
      | error e =>
        have hnot : ¬ p.state.canBecome .locked = true := fun hcan => by
          rw [Proposal.lockFor_eq_ok_iff.2 ⟨hcan, rfl⟩] at hlockFor
          cases hlockFor
        simp [hnot, Except.map]
      | ok r =>
        obtain ⟨hcan, rfl⟩ := Proposal.lockFor_eq_ok_iff.1 hlockFor
        simp [hcan, Except.map, eq_comm]
  · have hmoved : moved p target patch = (p.moveTo target).map patch.apply := by
      cases target <;> first
        | exact absurd rfl htarget
        | (simp only [moved]; cases p.moveTo _ <;> rfl)
    rw [hmoved]
    by_cases hcan : p.state.canBecome target = true
    · rw [Proposal.moveTo_eq_ok_iff.2 ⟨hcan, rfl⟩]
      simp [hcan, htarget, Except.map, eq_comm]
    · simp [Proposal.moveTo, hcan, Except.map]

theorem canBecome_of_moved (h : moved p target patch = .ok q) : p.state.canBecome target = true :=
  (moved_eq_ok_iff.1 h).1

/-- A move that takes no lock goes through wherever the lifecycle allows it. -/
theorem exists_moved_iff (htarget : target ≠ .locked) :
    (∃ q, moved p target patch = .ok q) ↔ p.state.canBecome target = true :=
  ⟨fun ⟨_, h⟩ => canBecome_of_moved h, fun hcan => ⟨_, moved_eq_ok_iff.2 ⟨hcan, Or.inr ⟨htarget, rfl⟩⟩⟩⟩

theorem state_of_moved (h : moved p target patch = .ok q) : q.state = target := by
  obtain ⟨-, ⟨lock, rfl, -, rfl⟩ | ⟨-, rfl⟩⟩ := moved_eq_ok_iff.1 h <;> rfl

theorem acceptedBy_of_moved (h : moved p target patch = .ok q) :
    q.acceptedBy = patch.acceptedBy.or p.acceptedBy := by
  obtain ⟨-, ⟨lock, rfl, -, rfl⟩ | ⟨-, rfl⟩⟩ := moved_eq_ok_iff.1 h <;> rfl

theorem result_of_moved (h : moved p target patch = .ok q) :
    q.result = patch.result.or p.result := by
  obtain ⟨-, ⟨lock, rfl, -, rfl⟩ | ⟨-, rfl⟩⟩ := moved_eq_ok_iff.1 h <;> rfl

theorem lockId_of_moved (h : moved p target patch = .ok q) (htarget : target ≠ .locked) :
    q.lockId = none := by
  obtain ⟨-, ⟨lock, rfl, -, -⟩ | ⟨-, rfl⟩⟩ := moved_eq_ok_iff.1 h
  · exact absurd rfl htarget
  · rfl

end Store

/-! ## Changes of a record -/

namespace Proposal

/-- The parts of a proposal that stay as they were when it was made. -/
structure Kin (p q : Proposal) : Prop where
  id : q.id = p.id
  proposer : q.proposer = p.proposer
  timestamp : q.timestamp = p.timestamp
  requirements : q.requirements = p.requirements
  container : q.container = p.container
  instances : q.instances = p.instances
  timeout : q.timeout = p.timeout
  maxRetries : q.maxRetries = p.maxRetries

theorem Kin.refl (p : Proposal) : Kin p p := by constructor <;> rfl

theorem Kin.trans {p q r : Proposal} (h : Kin p q) (h' : Kin q r) : Kin p r where
  id := h'.id.trans h.id
  proposer := h'.proposer.trans h.proposer
  timestamp := h'.timestamp.trans h.timestamp
  requirements := h'.requirements.trans h.requirements
  container := h'.container.trans h.container
  instances := h'.instances.trans h.instances
  timeout := h'.timeout.trans h.timeout
  maxRetries := h'.maxRetries.trans h.maxRetries

theorem kin_of_moved {p q : Proposal} {target : TaskState} {patch : Patch}
    (h : Store.moved p target patch = .ok q) : Kin p q := by
  obtain ⟨-, ⟨lock, rfl, -, rfl⟩ | ⟨-, rfl⟩⟩ := Store.moved_eq_ok_iff.1 h <;> constructor <;> rfl

/-- A lock is given back with its token, by a move to PROPOSED. -/
theorem release_eq_ok_iff {p q : Proposal} {token : String} :
    p.release token = .ok q ↔ p.lockId = some token ∧ Store.moved p .proposed .none = .ok q := by
  have hmoved : Store.moved p .proposed .none = p.moveTo .proposed := by
    simp only [Store.moved]
    cases p.moveTo .proposed <;> rfl
  unfold release
  by_cases htoken : p.lockId = some token
  · simp [htoken, hmoved]
  · simp [htoken]

/-- A lock is only granted on what can become LOCKED. -/
theorem canBecome_of_grant {p q : Proposal} {r : LockRequest} {now timeout : Int64}
    (h : p.grant r now timeout = .ok q) : p.state.canBecome .locked = true := by
  have hdenial := (grant_eq_ok_iff.1 h).1
  unfold lockDenial? at hdenial
  split at hdenial
  · cases hdenial
  · split at hdenial
    · next hstate => rw [hstate]; rfl
    · next hstate => rw [hstate]; rfl
    · cases hdenial

/-- The ways in which a command changes the record `p` under the id `k`. -/
inductive Changes (timeout : Int64) (k : String) (p : Proposal) : Command → Proposal → Prop
  | moved {target : TaskState} {patch : Patch} {q : Proposal} :
      Store.moved p target patch = .ok q → Changes timeout k p (.transition k target patch) q
  | progressed {progress : Option Json} :
      Changes timeout k p (.setProgress k progress) { p with progress := progress }
  | locked {r : LockRequest} {now : Int64} {q : Proposal} : r.proposalId = k →
      p.grant r now timeout = .ok q → Changes timeout k p (.lock r now) q
  | unlocked {r : UnlockRequest} {q : Proposal} : r.proposalId = k →
      p.release r.token = .ok q → Changes timeout k p (.unlock r) q

theorem Changes.kin {timeout : Int64} {k : String} {p q : Proposal} {c : Command}
    (h : Changes timeout k p c q) : Kin p q := by
  cases h with
  | moved h => exact kin_of_moved h
  | progressed => constructor <;> rfl
  | locked _ h =>
    obtain ⟨-, rfl⟩ := grant_eq_ok_iff.1 h
    constructor <;> rfl
  | unlocked _ h => exact kin_of_moved (release_eq_ok_iff.1 h).2

end Proposal

/-- The id that a command is about, if it may change what is kept under it. -/
def Command.subject? : Command → Option String
  | .insert p => some p.id
  | .remove id | .transition id _ _ | .setProgress id _ => some id
  | .lock r _ => some r.proposalId
  | .unlock r => some r.proposalId
  | _ => none

namespace Store

variable {s : Store} {k : String} {p q : Proposal} {c : Command}

@[simp] theorem get?_put {id : String} {p : Proposal} :
    (s.put id p).proposals.get? k = if k = id then some p else s.proposals.get? k :=
  SortedMap.get?_insert ..

/-- A command leaves alone what it is not about. -/
theorem step_of_subject_ne (hk : c.subject? ≠ some k) :
    (s.step c).1.proposals.get? k = s.proposals.get? k := by
  cases c with
  | insert r =>
    have hne : k ≠ r.id := fun heq => hk (by rw [heq]; rfl)
    simp only [step]
    split
    · rfl
    · rw [get?_put, if_neg hne]
  | remove id =>
    have hne : k ≠ id := fun heq => hk (by rw [heq]; rfl)
    simp only [step, SortedMap.get?_erase, if_neg hne, finish]
  | transition id target patch =>
    have hne : k ≠ id := fun heq => hk (by rw [heq]; rfl)
    simp only [step, transition]
    split
    · rfl
    · split
      · rfl
      · rw [get?_put, if_neg hne]
  | setProgress id progress =>
    have hne : k ≠ id := fun heq => hk (by rw [heq]; rfl)
    simp only [step]
    split
    · rfl
    · rw [get?_put, if_neg hne]
  | lock r now =>
    have hne : k ≠ r.proposalId := fun heq => hk (by rw [heq]; rfl)
    simp only [step, lock]
    split
    · rfl
    · split
      · rw [get?_put, if_neg hne]
      · rfl
  | unlock r =>
    have hne : k ≠ r.proposalId := fun heq => hk (by rw [heq]; rfl)
    simp only [step, unlock]
    split
    · rfl
    · split
      · rw [get?_put, if_neg hne]
      · rfl
  | reserve id requirements =>
    simp only [step]
    split <;> rfl
  | get | list | capabilities | updateCapabilities | canHandle | finish | activeTasks => rfl

/-- A record stays as it is, is removed, or changes in one of four ways. -/
theorem step_of_some (hp : s.proposals.get? k = some p) (c : Command) :
    (s.step c).1.proposals.get? k = some p ∨
      (c = .remove k ∧ (s.step c).1.proposals.get? k = none) ∨
        ∃ q, p.Changes s.lockTimeout k c q ∧ (s.step c).1.proposals.get? k = some q := by
  by_cases hk : c.subject? = some k
  · cases c with
    | insert r =>
      -- An id that is taken is not taken again.
      cases hk
      exact Or.inl (by simp [step, SortedMap.contains, hp])
    | remove id =>
      cases hk
      exact Or.inr (Or.inl ⟨rfl, by simp [step, SortedMap.get?_erase]⟩)
    | transition id target patch =>
      cases hk
      cases hmoved : moved p target patch with
      | error e => exact Or.inl (by simp [step, transition, hp, hmoved])
      | ok q => exact Or.inr (Or.inr ⟨q, .moved hmoved, by simp [step, transition, hp, hmoved]⟩)
    | setProgress id progress =>
      cases hk
      exact Or.inr (Or.inr ⟨_, .progressed, by simp [step, hp]⟩)
    | lock r now =>
      cases hk
      cases hgrant : p.grant r now s.lockTimeout with
      | error denial => exact Or.inl (by simp [step, lock, hp, hgrant])
      | ok q => exact Or.inr (Or.inr ⟨q, .locked rfl hgrant, by simp [step, lock, hp, hgrant]⟩)
    | unlock r =>
      cases hk
      cases hrelease : p.release r.token with
      | error e => exact Or.inl (by simp [step, unlock, hp, hrelease])
      | ok q => exact Or.inr (Or.inr ⟨q, .unlocked rfl hrelease, by simp [step, unlock, hp, hrelease]⟩)
    | get | list | capabilities | updateCapabilities | canHandle | reserve | finish | activeTasks =>
      cases hk
  · exact Or.inl (by rw [step_of_subject_ne hk, hp])

/-- Where there is no record, only an insertion makes one. -/
theorem step_of_none (hp : s.proposals.get? k = none) (c : Command) :
    (s.step c).1.proposals.get? k = none ∨
      ∃ p, c = .insert p ∧ p.id = k ∧ (s.step c).1.proposals.get? k = some p := by
  by_cases hk : c.subject? = some k
  · cases c with
    | insert r =>
      cases hk
      exact Or.inr ⟨r, rfl, rfl, by simp [step, SortedMap.contains, hp]⟩
    | remove id =>
      cases hk
      exact Or.inl (by simp [step, SortedMap.get?_erase])
    | transition id target patch =>
      cases hk
      exact Or.inl (by simp [step, transition, hp])
    | setProgress id progress =>
      cases hk
      exact Or.inl (by simp [step, hp])
    | lock r now =>
      cases hk
      exact Or.inl (by simp [step, lock, hp])
    | unlock r =>
      cases hk
      exact Or.inl (by simp [step, unlock, hp])
    | get | list | capabilities | updateCapabilities | canHandle | reserve | finish | activeTasks =>
      cases hk
  · exact Or.inl (by rw [step_of_subject_ne hk, hp])

/-- A record was there before, or a proposal was taken in, or it is a change of what was there. -/
theorem origin_of_step (hq : (s.step c).1.proposals.get? k = some q) :
    s.proposals.get? k = some q ∨ (c = .insert q ∧ q.id = k) ∨
      ∃ p, s.proposals.get? k = some p ∧ p.Changes s.lockTimeout k c q := by
  cases hp : s.proposals.get? k with
  | none =>
    obtain hnone | ⟨p, hc, hid, hp'⟩ := step_of_none hp c
    · rw [hnone] at hq; cases hq
    · obtain rfl := Option.some.inj (hp'.symm.trans hq)
      exact Or.inr (Or.inl ⟨hc, hid⟩)
  | some p =>
    obtain hsame | ⟨-, hnone⟩ | ⟨r, hchanges, hr⟩ := step_of_some hp c
    · exact Or.inl (hsame.symm.trans hq)
    · rw [hnone] at hq; cases hq
    · obtain rfl := Option.some.inj (hr.symm.trans hq)
      exact Or.inr (Or.inr ⟨p, rfl, hchanges⟩)

/-! ## What a reply says about the record -/

/-- A move that succeeded says what the record was and what it is. -/
theorem of_reply_transition {id : String} {target : TaskState} {patch : Patch}
    (h : (s.step (.transition id target patch)).2.1 = .ok q) :
    ∃ p, s.proposals.get? id = some p ∧ moved p target patch = .ok q ∧
      (s.step (.transition id target patch)).1.proposals.get? id = some q := by
  simp only [step, transition] at h ⊢
  cases hp : s.proposals.get? id with
  | none => simp [hp] at h
  | some p =>
    simp only [hp] at h ⊢
    cases hmoved : moved p target patch with
    | error e => simp [hmoved] at h
    | ok r =>
      simp only [hmoved, Except.ok.injEq] at h
      subst h
      exact ⟨p, rfl, hmoved, by simp⟩

/-- A move that the record allows succeeds. -/
theorem reply_transition {id : String} {target : TaskState} {patch : Patch}
    (hp : s.proposals.get? id = some p) (h : moved p target patch = .ok q) :
    (s.step (.transition id target patch)).2.1 = .ok q := by
  simp [step, transition, hp, h]

/-- A lock is taken back with its token. -/
theorem reply_unlock {r : UnlockRequest} (hp : s.proposals.get? r.proposalId = some p)
    (hstate : p.state = .locked) (htoken : p.lockId = some r.token) : (s.step (.unlock r)).2.1 = .ok () := by
  cases hrelease : p.release r.token with
  | error e =>
    rw [Proposal.release, if_pos htoken, Proposal.moveTo, hstate] at hrelease
    cases hrelease
  | ok q => simp [step, unlock, hp, hrelease]

/-- A lock that was granted says what the record was. -/
theorem of_reply_lock {r : LockRequest} {now : Int64} {token : String} {former : TaskState}
    (h : (s.step (.lock r now)).2.1 = .granted token former) :
    ∃ p q, s.proposals.get? r.proposalId = some p ∧ p.grant r now s.lockTimeout = .ok q := by
  simp only [step, lock] at h
  cases hp : s.proposals.get? r.proposalId with
  | none => simp [hp] at h
  | some p =>
    simp only [hp] at h
    cases hgrant : p.grant r now s.lockTimeout with
    | error denial => simp [hgrant] at h
    | ok q => exact ⟨p, q, rfl, hgrant⟩

end Store

end TaskSwarm
