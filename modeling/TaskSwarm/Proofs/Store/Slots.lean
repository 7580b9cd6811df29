/-
The slots of a store.

A slot is taken in one command that checks the room there is, and given back in
another; whatever else happens, only the removal of a proposal frees its slot
(`isActive_step_iff`). So a slot that was taken had room by the capabilities of that
moment (`reserved_iff`), and there are never more slots taken than tasks allowed for as
long as fewer tasks are not allowed than before (`activeCount_step_le`).
-/
import TaskSwarm.Proofs.Store.History

set_option autoImplicit false

namespace TaskSwarm

/-! ## How many entries a map has -/

theorem length_insertEntry_le {α : Type} (k : String) (v : α) (es : List (String × α)) :
    (insertEntry k v es).length ≤ es.length + 1 := by
  induction es with
  | nil => exact Nat.le_refl _
  | cons e rest ih =>
    simp only [insertEntry]
    split
    · exact Nat.le_refl _
    · split
      · exact Nat.le_succ _
      · exact Nat.succ_le_succ ih

namespace SortedMap

variable {α : Type} {m : SortedMap α} {k : String} {v : α}

theorem size_insert_le : (m.insert k v).size ≤ m.size + 1 := length_insertEntry_le k v m.entries

theorem size_erase_le : (m.erase k).size ≤ m.size := List.length_filter_le _ _

end SortedMap

namespace Command

/-- The task that a command has taken a slot for, going by its answer. -/
def takes? : (c : Command) → c.Reply → Option String
  | .reserve id _, true => some id
  | _, _ => none

/-- The task whose slot a command gives back. -/
def frees? : Command → Option String
  | .finish id | .remove id => some id
  | _ => none

variable {c : Command} {k : String}

theorem eq_of_takes? {answer : c.Reply} (h : c.takes? answer = some k) :
    ∃ r, (⟨c, answer⟩ : Decision) = ⟨.reserve k r, true⟩ := by
  unfold Command.takes? at h
  split at h
  · next id r =>
    cases h
    exact ⟨r, rfl⟩
  · cases h

theorem eq_of_frees? (h : c.frees? = some k) : c = .finish k ∨ c = .remove k := by
  unfold Command.frees? at h
  split at h
  · cases h
    exact Or.inl rfl
  · cases h
    exact Or.inr rfl
  · cases h

theorem frees?_of_takes? {answer : c.Reply} (h : c.takes? answer = some k) : c.frees? = none := by
  unfold Command.takes? at h
  split at h
  · rfl
  · cases h

end Command

namespace Store

variable {s : Store} {k : String} {c : Command} {requirements : Requirements}

/-! ## Room for a task -/

/-- Each thing a task needs is there, and a slot is free. -/
structure HasRoom (s : Store) (r : Requirements) : Prop where
  cpu : r.cpu ≤ s.capabilities.cpu
  memory : r.memory ≤ s.capabilities.memory
  bandwidth : r.bandwidth ≤ s.capabilities.bandwidth
  storage : r.storage ≤ s.capabilities.storage
  slot : s.activeCount < s.capabilities.maxTasks

theorem canHandle_iff : s.canHandle requirements = true ↔ s.HasRoom requirements := by
  simp only [canHandle, Capabilities.canHandle, Capabilities.fits, Bool.and_eq_true, decide_eq_true_eq]
  constructor
  · rintro ⟨⟨⟨⟨hcpu, hmemory⟩, hbandwidth⟩, hstorage⟩, hslot⟩
    exact ⟨hcpu, hmemory, hbandwidth, hstorage, hslot⟩
  · rintro ⟨hcpu, hmemory, hbandwidth, hstorage, hslot⟩
    exact ⟨⟨⟨⟨hcpu, hmemory⟩, hbandwidth⟩, hstorage⟩, hslot⟩

/-- A slot is taken exactly where there is room, for a task that has none. -/
theorem reserved_iff : (s.step (.reserve k requirements)).2.1 = true ↔
    s.isActive k = false ∧ s.HasRoom requirements := by
  rw [← canHandle_iff, step]
  cases hactive : s.isActive k <;> cases hroom : s.canHandle requirements <;> simp

/-! ## What a command does to the slots -/

theorem active_step : (s.step c).1.active =
    match c.takes? (s.step c).2.1, c.frees? with
    | some id, _ => s.active.insert id ()
    | none, some id => s.active.erase id
    | none, none => s.active := by
  cases c with
  | reserve id r =>
    simp only [step]
    split <;> rfl
  | insert | setProgress =>
    simp only [step]
    split <;> rfl
  | transition id target patch =>
    simp only [step]
    obtain ⟨p, q, -, -, heq⟩ | ⟨e, heq⟩ := s.transition_cases id target patch <;> rw [heq] <;> rfl
  | lock r now =>
    simp only [step]
    obtain ⟨p, q, -, -, heq⟩ | ⟨denial, heq⟩ := s.lock_cases r now <;> rw [heq] <;> rfl
  | unlock r =>
    simp only [step]
    obtain ⟨p, q, -, -, heq⟩ | ⟨e, heq⟩ := s.unlock_cases r <;> rw [heq] <;> rfl
  | get | list | remove | capabilities | updateCapabilities | canHandle | finish | activeTasks => rfl

theorem isActive_step_iff : (s.step c).1.isActive k = true ↔
    c.takes? (s.step c).2.1 = some k ∨ (s.isActive k = true ∧ c.frees? ≠ some k) := by
  simp only [isActive, SortedMap.contains, active_step]
  cases htakes : c.takes? (s.step c).2.1 with
  | some id =>
    simp only [SortedMap.get?_insert, Command.frees?_of_takes? htakes, Option.some.injEq]
    by_cases hk : id = k
    · simp [hk]
    · simp [hk, Ne.symm hk]
  | none =>
    cases c.frees? with
    | some id =>
      simp only [SortedMap.get?_erase]
      by_cases hk : id = k
      · simp [hk]
      · simp [hk, Ne.symm hk]
    | none => simp

/-- No command takes more slots than one, and one only where there is room. -/
theorem activeCount_step_le :
    (s.step c).1.activeCount ≤ s.activeCount ∨
      ((s.step c).1.activeCount ≤ s.activeCount + 1 ∧ s.activeCount < s.capabilities.maxTasks) := by
  unfold activeCount
  rw [active_step]
  cases htakes : c.takes? (s.step c).2.1 with
  | some id =>
    unfold Command.takes? at htakes
    split at htakes
    · next id' r htaken =>
      refine Or.inr ⟨SortedMap.size_insert_le, ?_⟩
      exact (reserved_iff.1 htaken).2.slot
    · cases htakes
  | none =>
    cases c.frees? with
    | some id => exact Or.inl SortedMap.size_erase_le
    | none => exact Or.inl (Nat.le_refl _)

/-- There are no more slots taken than tasks allowed for, unless fewer are allowed than before. -/
theorem activeCount_le_step (h : s.activeCount ≤ s.capabilities.maxTasks)
    (hmax : s.capabilities.maxTasks ≤ (s.step c).1.capabilities.maxTasks) :
    (s.step c).1.activeCount ≤ (s.step c).1.capabilities.maxTasks := by
  obtain hle | ⟨hle, hlt⟩ := activeCount_step_le (s := s) (c := c) <;> omega

end Store

end TaskSwarm
