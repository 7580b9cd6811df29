/-
Histories of a store.

A store decides its commands one at a time, and what it has been through is the
list of its decisions: the commands, with the answers it gave. An answer tells
whether the command was carried out. One that was refused changes nothing at all
(`step_of_refuses`); one that moved a proposal from state to state tells one event,
of exactly that move (`step_of_moves`); and whatever else happens leaves a record
as it was, apart from its note of progress, unless it removes it
(`get?_step_of_not_moves`). What is said of whole histories later on is drawn from
these three, and from where commands lead: in a store that they have led to, every
record is kept under its own id (`Reached.keyed`).
-/
import TaskSwarm.Proofs.Store.Record

set_option autoImplicit false

namespace TaskSwarm

/-! ## Answers -/

namespace Command

/-- Whether an answer says that the command was not carried out. -/
def refuses : (c : Command) → c.Reply → Bool
  | .insert _, kept => !kept
  | .transition .., .error _ => true
  | .setProgress .., .error _ => true
  | .lock .., .denied _ => true
  | .unlock _, .error _ => true
  | .canHandle _, fits => !fits
  | .reserve .., taken => !taken
  | _, _ => false

/-- The proposal that a command has moved from state to state, going by its answer. -/
def moves? : (c : Command) → c.Reply → Option String
  | .transition id _ _, .ok _ => some id
  | .lock r _, .granted .. => some r.proposalId
  | .unlock r, .ok _ => some r.proposalId
  | _, _ => none

end Command

/-- A command, and how it was answered. -/
structure Decision where
  command : Command
  answer : command.Reply

namespace Store

variable {s : Store} {k : String} {p q : Proposal} {c : Command}

/-! ## What a command comes to

Three commands move proposals, and each either does so and tells it, or changes nothing. -/

theorem transition_cases (s : Store) (id : String) (target : TaskState) (patch : Patch) :
    (∃ p q, s.proposals.get? id = some p ∧ moved p target patch = .ok q ∧
      s.transition id target patch =
        (s.put id q, .ok q, [.proposalStateChanged id p.state target])) ∨
      ∃ e, s.transition id target patch = (s, .error e, []) := by
  unfold transition
  cases hp : s.proposals.get? id with
  | none => exact Or.inr ⟨_, rfl⟩
  | some p =>
    cases hmoved : moved p target patch with
    | error e => exact Or.inr ⟨e, by simp only [hmoved]⟩
    | ok q => exact Or.inl ⟨p, q, rfl, hmoved, by simp only [hmoved]⟩

theorem lock_cases (s : Store) (r : LockRequest) (now : Int64) :
    (∃ p q, s.proposals.get? r.proposalId = some p ∧ p.grant r now s.lockTimeout = .ok q ∧
      s.lock r now = (s.put r.proposalId q, .granted r.token p.state,
        [.proposalStateChanged r.proposalId p.state .locked])) ∨
      ∃ denial, s.lock r now = (s, .denied denial, []) := by
  simp only [lock]
  cases hp : s.proposals.get? r.proposalId with
  | none => exact Or.inr ⟨_, rfl⟩
  | some p =>
    cases hgrant : p.grant r now s.lockTimeout with
    | error denial => exact Or.inr ⟨denial, by simp only [hgrant]⟩
    | ok q => exact Or.inl ⟨p, q, rfl, hgrant, by simp only [hgrant]⟩

theorem unlock_cases (s : Store) (r : UnlockRequest) :
    (∃ p q, s.proposals.get? r.proposalId = some p ∧ p.release r.token = .ok q ∧
      s.unlock r = (s.put r.proposalId q, .ok (),
        [.proposalStateChanged r.proposalId p.state .proposed])) ∨
      ∃ e, s.unlock r = (s, .error e, []) := by
  simp only [unlock]
  cases hp : s.proposals.get? r.proposalId with
  | none => exact Or.inr ⟨_, rfl⟩
  | some p =>
    cases hrelease : p.release r.token with
    | error e => exact Or.inr ⟨e, by simp only [hrelease]⟩
    | ok q => exact Or.inl ⟨p, q, rfl, hrelease, by simp only [hrelease]⟩

/-! ## One decision -/

/-- What is refused changes nothing, and tells nothing. -/
theorem step_of_refuses (h : c.refuses (s.step c).2.1 = true) :
    (s.step c).1 = s ∧ (s.step c).2.2 = [] := by
  cases c with
  | insert p =>
    rw [step] at h ⊢
    split at h
    · next hkept => rw [if_pos hkept]; exact ⟨rfl, rfl⟩
    · cases h
  | transition id target patch =>
    rw [step] at h ⊢
    obtain ⟨p, q, -, -, heq⟩ | ⟨e, heq⟩ := s.transition_cases id target patch
    · rw [heq] at h; cases h
    · rw [heq]; exact ⟨rfl, rfl⟩
  | setProgress id progress =>
    rw [step] at h ⊢
    cases hp : s.proposals.get? id with
    | none => exact ⟨rfl, rfl⟩
    | some p => rw [hp] at h; cases h
  | lock r now =>
    rw [step] at h ⊢
    obtain ⟨p, q, -, -, heq⟩ | ⟨denial, heq⟩ := s.lock_cases r now
    · rw [heq] at h; cases h
    · rw [heq]; exact ⟨rfl, rfl⟩
  | unlock r =>
    rw [step] at h ⊢
    obtain ⟨p, q, -, -, heq⟩ | ⟨e, heq⟩ := s.unlock_cases r
    · rw [heq] at h; cases h
    · rw [heq]; exact ⟨rfl, rfl⟩
  | canHandle requirements => exact ⟨rfl, rfl⟩
  | reserve id requirements =>
    rw [step] at h ⊢
    split at h
    · next hfull => rw [if_pos hfull]; exact ⟨rfl, rfl⟩
    · cases h
  | get | list | remove | capabilities | updateCapabilities | finish | activeTasks => cases h

/-- What moves a proposal moves it along an edge of the lifecycle, and tells that and nothing else. -/
theorem step_of_moves (h : c.moves? (s.step c).2.1 = some k) :
    ∃ p q, s.proposals.get? k = some p ∧ p.Changes s.lockTimeout k c q ∧
      (s.step c).1 = s.put k q ∧ p.state.canBecome q.state = true ∧
        (s.step c).2.2 = [.proposalStateChanged k p.state q.state] := by
  cases c with
  | transition id target patch =>
    rw [step] at h ⊢
    obtain ⟨p, q, hp, hmoved, heq⟩ | ⟨e, heq⟩ := s.transition_cases id target patch
    · rw [heq] at h ⊢
      cases h
      have hstate := state_of_moved hmoved
      have hcan := canBecome_of_moved hmoved
      rw [← hstate] at hcan
      exact ⟨p, q, hp, .moved hmoved, rfl, hcan, by rw [hstate]⟩
    · rw [heq] at h; cases h
  | lock r now =>
    rw [step] at h ⊢
    obtain ⟨p, q, hp, hgrant, heq⟩ | ⟨denial, heq⟩ := s.lock_cases r now
    · rw [heq] at h ⊢
      cases h
      have hstate : q.state = .locked := by rw [(Proposal.grant_eq_ok_iff.1 hgrant).2]
      have hcan := Proposal.canBecome_of_grant hgrant
      rw [← hstate] at hcan
      exact ⟨p, q, hp, .locked rfl hgrant, rfl, hcan, by rw [hstate]⟩
    · rw [heq] at h; cases h
  | unlock r =>
    rw [step] at h ⊢
    obtain ⟨p, q, hp, hrelease, heq⟩ | ⟨e, heq⟩ := s.unlock_cases r
    · rw [heq] at h ⊢
      cases h
      have hmoved := (Proposal.release_eq_ok_iff.1 hrelease).2
      have hstate := state_of_moved hmoved
      have hcan := canBecome_of_moved hmoved
      rw [← hstate] at hcan
      exact ⟨p, q, hp, .unlocked rfl hrelease, rfl, hcan, by rw [hstate]⟩
    · rw [heq] at h; cases h
  | insert | get | list | remove | setProgress | capabilities | updateCapabilities | canHandle
    | reserve | finish | activeTasks => cases h

/-- What moves no proposal tells nothing. -/
theorem events_of_not_moves (h : c.moves? (s.step c).2.1 = none) : (s.step c).2.2 = [] := by
  cases c with
  | insert p => rw [step]; split <;> rfl
  | transition id target patch =>
    rw [step] at h ⊢
    obtain ⟨p, q, -, -, heq⟩ | ⟨e, heq⟩ := s.transition_cases id target patch
    · rw [heq] at h; cases h
    · rw [heq]
  | setProgress id progress => rw [step]; split <;> rfl
  | lock r now =>
    rw [step] at h ⊢
    obtain ⟨p, q, -, -, heq⟩ | ⟨denial, heq⟩ := s.lock_cases r now
    · rw [heq] at h; cases h
    · rw [heq]
  | unlock r =>
    rw [step] at h ⊢
    obtain ⟨p, q, -, -, heq⟩ | ⟨e, heq⟩ := s.unlock_cases r
    · rw [heq] at h; cases h
    · rw [heq]
  | reserve id requirements => rw [step]; split <;> rfl
  | get | list | remove | capabilities | updateCapabilities | canHandle | finish | activeTasks => rfl

/-- Whatever moves no proposal leaves a record as it is, its note of progress apart, unless it removes it. -/
theorem get?_step_of_not_moves (hp : s.proposals.get? k = some p)
    (hmoves : c.moves? (s.step c).2.1 ≠ some k) (hremove : c ≠ .remove k) :
    ∃ progress, (s.step c).1.proposals.get? k = some { p with progress := progress } := by
  obtain hsame | ⟨hc, -⟩ | ⟨q, hchanges, hq⟩ := step_of_some hp c
  · exact ⟨p.progress, hsame⟩
  · exact absurd hc hremove
  cases hchanges with
  | moved hmoved => exact absurd (by rw [reply_transition hp hmoved]; rfl) hmoves
  | progressed => exact ⟨_, hq⟩
  | @locked r now _ hr hgrant =>
    subst hr
    refine absurd ?_ hmoves
    simp [step, lock, hp, hgrant, Command.moves?]
  | @unlocked r _ hr hrelease =>
    subst hr
    refine absurd ?_ hmoves
    simp [step, unlock, hp, hrelease, Command.moves?]

/-- What moves a proposal found a record of it. -/
theorem not_moves_of_none (hp : s.proposals.get? k = none) : c.moves? (s.step c).2.1 ≠ some k := by
  intro hmoves
  obtain ⟨p, -, hp', -⟩ := step_of_moves hmoves
  rw [hp] at hp'
  cases hp'

/-- A command about a record is carried out exactly if it removes the record or changes it. -/
theorem carried_out_iff (hp : s.proposals.get? k = some p) :
    c.subject? = some k ∧ c.refuses (s.step c).2.1 = false ↔
      c = .remove k ∨ ∃ q, p.Changes s.lockTimeout k c q := by
  constructor
  · rintro ⟨hk, hdone⟩
    cases c with
    | insert r =>
      cases hk
      simp [step, SortedMap.contains, hp, Command.refuses] at hdone
    | remove id =>
      cases hk
      exact Or.inl rfl
    | transition id target patch =>
      cases hk
      obtain ⟨p', q, hp', hmoved, -⟩ | ⟨e, heq⟩ := s.transition_cases k target patch
      · cases hp.symm.trans hp'
        exact Or.inr ⟨q, .moved hmoved⟩
      · simp [step, heq, Command.refuses] at hdone
    | setProgress id progress =>
      cases hk
      exact Or.inr ⟨_, .progressed⟩
    | lock r now =>
      cases hk
      obtain ⟨p', q, hp', hgrant, -⟩ | ⟨denial, heq⟩ := s.lock_cases r now
      · cases hp.symm.trans hp'
        exact Or.inr ⟨q, .locked rfl hgrant⟩
      · simp [step, heq, Command.refuses] at hdone
    | unlock r =>
      cases hk
      obtain ⟨p', q, hp', hrelease, -⟩ | ⟨e, heq⟩ := s.unlock_cases r
      · cases hp.symm.trans hp'
        exact Or.inr ⟨q, .unlocked rfl hrelease⟩
      · simp [step, heq, Command.refuses] at hdone
    | get | list | capabilities | updateCapabilities | canHandle | reserve | finish | activeTasks =>
      cases hk
  · rintro (rfl | ⟨q, hchanges⟩)
    · exact ⟨rfl, rfl⟩
    · cases hchanges with
      | moved hmoved => simp [step, transition, hp, hmoved, Command.subject?, Command.refuses]
      | progressed => simp [step, hp, Command.subject?, Command.refuses]
      | locked hr hgrant =>
        subst hr
        simp [step, lock, hp, hgrant, Command.subject?, Command.refuses]
      | unlocked hr hrelease =>
        subst hr
        simp [step, unlock, hp, hrelease, Command.subject?, Command.refuses]

/-- How long a lock may be held is settled when the store is made. -/
@[simp] theorem lockTimeout_step : (s.step c).1.lockTimeout = s.lockTimeout := by
  cases c with
  | insert | setProgress | reserve => rw [step]; split <;> rfl
  | transition id target patch =>
    rw [step]
    obtain ⟨p, q, -, -, heq⟩ | ⟨e, heq⟩ := s.transition_cases id target patch <;> rw [heq]
    rfl
  | lock r now =>
    rw [step]
    obtain ⟨p, q, -, -, heq⟩ | ⟨denial, heq⟩ := s.lock_cases r now <;> rw [heq]
    rfl
  | unlock r =>
    rw [step]
    obtain ⟨p, q, -, -, heq⟩ | ⟨e, heq⟩ := s.unlock_cases r <;> rw [heq]
    rfl
  | get | list | remove | capabilities | updateCapabilities | canHandle | finish | activeTasks => rfl

/-! ## Many decisions -/

/-- The store after a sequence of commands. -/
def after (s : Store) : List Command → Store
  | [] => s
  | c :: cs => (s.step c).1.after cs

/-- What a sequence of commands is answered. -/
def decisions (s : Store) : List Command → List Decision
  | [] => []
  | c :: cs => ⟨c, (s.step c).2.1⟩ :: (s.step c).1.decisions cs

/-- The events that a sequence of commands causes. -/
def told (s : Store) : List Command → List NodeEvent
  | [] => []
  | c :: cs => (s.step c).2.2 ++ (s.step c).1.told cs

variable {cs ds : List Command}

@[simp] theorem after_nil : s.after [] = s := rfl

@[simp] theorem after_cons : s.after (c :: cs) = (s.step c).1.after cs := rfl

@[simp] theorem decisions_nil : s.decisions [] = [] := rfl

@[simp] theorem decisions_cons :
    s.decisions (c :: cs) = ⟨c, (s.step c).2.1⟩ :: (s.step c).1.decisions cs := rfl

@[simp] theorem told_nil : s.told [] = [] := rfl

@[simp] theorem told_cons : s.told (c :: cs) = (s.step c).2.2 ++ (s.step c).1.told cs := rfl

theorem after_append : s.after (cs ++ ds) = (s.after cs).after ds := by
  induction cs generalizing s with
  | nil => rfl
  | cons c cs ih => exact ih

/-- A split of the decisions is a split of the commands. -/
theorem decisions_eq_append {xs ys : List Decision} (h : s.decisions cs = xs ++ ys) :
    ∃ bs ds, cs = bs ++ ds ∧ s.decisions bs = xs ∧ (s.after bs).decisions ds = ys := by
  induction xs generalizing s cs with
  | nil => exact ⟨[], cs, rfl, rfl, h⟩
  | cons x xs ih =>
    cases cs with
    | nil => cases h
    | cons c cs =>
      obtain ⟨hx, hrest⟩ := List.cons.inj h
      obtain ⟨bs, ds, rfl, hbs, hds⟩ := ih hrest
      exact ⟨c :: bs, ds, rfl, by rw [decisions_cons, hx, hbs], hds⟩

/-- What came after some decisions was decided by the store after the commands they decide. -/
theorem decisions_eq_cons {x : Decision} {xs : List Decision} (h : s.decisions cs = x :: xs) :
    ∃ ds, cs = x.command :: ds ∧ (s.step x.command).2.1 = x.answer ∧
      (s.step x.command).1.decisions ds = xs := by
  cases cs with
  | nil => cases h
  | cons c cs =>
    obtain ⟨rfl, hrest⟩ := List.cons.inj h
    exact ⟨cs, rfl, rfl, hrest⟩

@[simp] theorem lockTimeout_after : (s.after cs).lockTimeout = s.lockTimeout := by
  induction cs generalizing s with
  | nil => rfl
  | cons c cs ih => rw [after_cons, ih, lockTimeout_step]

/-- A record that is not removed stays, and stays a record of the same proposal. -/
theorem kept_of_not_removed (hp : s.proposals.get? k = some p) (hcs : Command.remove k ∉ cs) :
    ∃ r, (s.after cs).proposals.get? k = some r ∧ Proposal.Kin p r := by
  induction cs generalizing s p with
  | nil => exact ⟨p, hp, .refl p⟩
  | cons c cs ih =>
    obtain ⟨hc, hcs⟩ := List.ne_and_not_mem_of_not_mem_cons hcs
    obtain hsame | ⟨hremove, -⟩ | ⟨q, hchanges, hq⟩ := step_of_some hp c
    · exact ih hsame hcs
    · exact absurd hremove hc.symm
    · obtain ⟨r, hr, hkin⟩ := ih hq hcs
      exact ⟨r, hr, hchanges.kin.trans hkin⟩

/-- Every record is kept under its own id. -/
def Keyed (s : Store) : Prop := ∀ k p, s.proposals.get? k = some p → p.id = k

theorem keyed_empty (capabilities : Capabilities) (timeout : Int64) :
    (empty capabilities timeout).Keyed := by
  intro k p hp
  rw [empty, SortedMap.get?_empty] at hp
  cases hp

theorem Keyed.step (h : s.Keyed) : (s.step c).1.Keyed := by
  intro k q hq
  obtain hsame | ⟨-, hid⟩ | ⟨p, hp, hchanges⟩ := origin_of_step hq
  · exact h k q hsame
  · exact hid
  · exact hchanges.kin.id.trans (h k p hp)

theorem Keyed.after (h : s.Keyed) : (s.after cs).Keyed := by
  induction cs generalizing s with
  | nil => exact h
  | cons c cs ih => exact ih h.step

/-- Commands have led to the store from one without proposals. -/
def Reached (s : Store) : Prop :=
  ∃ capabilities timeout cs, s = (empty capabilities timeout).after cs

theorem reached_empty (capabilities : Capabilities) (timeout : Int64) :
    (empty capabilities timeout).Reached :=
  ⟨capabilities, timeout, [], rfl⟩

theorem Reached.step (h : s.Reached) (c : Command) : (s.step c).1.Reached := by
  obtain ⟨capabilities, timeout, cs, rfl⟩ := h
  exact ⟨capabilities, timeout, cs ++ [c], by rw [after_append]; rfl⟩

theorem Reached.keyed (h : s.Reached) : s.Keyed := by
  obtain ⟨capabilities, timeout, cs, rfl⟩ := h
  exact (keyed_empty capabilities timeout).after

/-- A proposal is taken in exactly where nothing is kept under its id. -/
theorem inserted_iff : (s.step (.insert p)).2.1 = true ↔ s.proposals.get? p.id = none := by
  rw [step]
  split
  · next hkept => simpa using Option.isSome_iff_ne_none.1 hkept
  · next hfree => simpa [SortedMap.contains] using hfree

/-- A proposal that was taken in is what the store keeps under its id. -/
theorem get?_of_inserted (h : (s.step (.insert p)).2.1 = true) :
    (s.step (.insert p)).1.proposals.get? p.id = some p := by
  rw [step] at h ⊢
  split at h
  · cases h
  · next hfree => rw [if_neg hfree, get?_put, if_pos rfl]

end Store

end TaskSwarm
