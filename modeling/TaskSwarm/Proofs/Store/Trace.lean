/-
What the events of a store tell.

A store tells every move of a proposal, and nothing else. The moves told of one
proposal from when it was taken in until it is removed therefore join up: they start
at the state it came in, each goes on from where the one before it ended, along an
edge of the lifecycle, and they end at the state of the record
(`leads_of_not_removed`). What the lifecycle says of paths, such as that there is no
way to RUNNING past LOCKED and ACCEPTED, is then true of what is told.
-/
import TaskSwarm.Proofs.Store.History

set_option autoImplicit false

namespace TaskSwarm

/-! ## Paths through the lifecycle -/

/-- The moves join up to a path from one state to another, along edges of the lifecycle. -/
inductive Leads : TaskState → List (TaskState × TaskState) → TaskState → Prop
  | nil {a : TaskState} : Leads a [] a
  | cons {a b c : TaskState} {moves : List (TaskState × TaskState)} :
      a.canBecome b = true → Leads b moves c → Leads a ((a, b) :: moves) c

namespace Leads

variable {a b c d : TaskState} {moves xs ys : List (TaskState × TaskState)}

theorem append (h : Leads a xs b) (h' : Leads b ys c) : Leads a (xs ++ ys) c := by
  induction h with
  | nil => exact h'
  | cons hcan _ ih => exact .cons hcan (ih h')

theorem exists_of_append (h : Leads a (xs ++ ys) c) : ∃ b, Leads a xs b ∧ Leads b ys c := by
  induction xs generalizing a with
  | nil => exact ⟨a, .nil, h⟩
  | cons x xs ih =>
    cases h with
    | cons hcan hrest =>
      obtain ⟨b, hxs, hys⟩ := ih hrest
      exact ⟨b, .cons hcan hxs, hys⟩

/-- A path that goes on after a move goes on from the state the move led to. -/
theorem of_append_cons (h : Leads a (xs ++ (b, c) :: ys) d) :
    Leads a xs b ∧ b.canBecome c = true ∧ Leads c ys d := by
  obtain ⟨m, hxs, hrest⟩ := h.exists_of_append
  cases hrest with
  | cons hcan hys => exact ⟨hxs, hcan, hys⟩

/-- The last move of a path leads to where the path ends. -/
theorem eq_nil_or_snoc (h : Leads a moves c) :
    (moves = [] ∧ a = c) ∨ ∃ xs b, moves = xs ++ [(b, c)] ∧ Leads a xs b ∧ b.canBecome c = true := by
  obtain rfl | ⟨xs, x, rfl⟩ := List.eq_nil_or_concat moves
  · cases h
    exact Or.inl ⟨rfl, rfl⟩
  · rw [List.concat_eq_append] at h ⊢
    obtain ⟨hxs, hcan, hend⟩ := h.of_append_cons
    cases hend
    exact Or.inr ⟨xs, x.1, rfl, hxs, hcan⟩

/-- No path leads out of a terminal state. -/
theorem eq_nil_of_terminal (h : Leads a moves c) (ha : a.isTerminal = true) : moves = [] := by
  cases h with
  | nil => rfl
  | cons hcan _ =>
    rw [TaskState.canBecome_of_terminal ha] at hcan
    cases hcan

/-- The way from PROPOSED to ACCEPTED ends through LOCKED. -/
theorem through_locked (h : Leads .proposed moves .accepted) :
    ∃ xs b, moves = xs ++ [(b, .locked), (.locked, .accepted)] := by
  obtain ⟨-, hne⟩ | ⟨xs, b, rfl, hxs, hcan⟩ := h.eq_nil_or_snoc
  · cases hne
  obtain rfl : b = .locked := by
    cases b <;> first | rfl | cases hcan
  obtain ⟨-, hne⟩ | ⟨ys, b, rfl, -, -⟩ := hxs.eq_nil_or_snoc
  · cases hne
  · exact ⟨ys, b, by rw [List.append_assoc]; rfl⟩

/-- The way from PROPOSED to a task that runs or is done comes through LOCKED and then ACCEPTED. -/
theorem through_accepted (h : Leads .proposed (xs ++ (b, c) :: ys) d)
    (hc : c = .running ∨ c = .completed) :
    ∃ us a vs, xs = us ++ (a, .locked) :: (.locked, .accepted) :: vs := by
  obtain ⟨hxs, hcan, -⟩ := h.of_append_cons
  have hb : b = .accepted ∨ b = .running := by
    obtain rfl | rfl := hc <;> cases b <;> first | exact Or.inl rfl | exact Or.inr rfl | cases hcan
  obtain rfl | rfl := hb
  · obtain ⟨us, a, rfl⟩ := hxs.through_locked
    exact ⟨us, a, [], rfl⟩
  · obtain ⟨-, hne⟩ | ⟨ws, b, rfl, hws, hcan⟩ := hxs.eq_nil_or_snoc
    · cases hne
    obtain rfl : b = .accepted := by
      cases b <;> first | rfl | cases hcan
    obtain ⟨us, a, rfl⟩ := hws.through_locked
    exact ⟨us, a, _, by rw [List.append_assoc]; rfl⟩

end Leads

/-! ## What is told of a proposal -/

/-- The moves of one proposal that events tell of. -/
def changesOf (k : String) (events : List NodeEvent) : List (TaskState × TaskState) :=
  events.filterMap fun
    | .proposalStateChanged id former state => if id = k then some (former, state) else none
    | _ => none

@[simp] theorem changesOf_nil {k : String} : changesOf k [] = [] := rfl

@[simp] theorem changesOf_append {k : String} {es es' : List NodeEvent} :
    changesOf k (es ++ es') = changesOf k es ++ changesOf k es' :=
  List.filterMap_append

theorem changesOf_moved {k id : String} {a b : TaskState} :
    changesOf k [.proposalStateChanged id a b] = if id = k then [(a, b)] else [] := by
  by_cases hid : id = k <;> simp [changesOf, hid]

namespace Store

variable {s : Store} {k : String} {p : Proposal} {c : Command} {cs : List Command}

/-- What does not move a proposal tells nothing of it. -/
theorem changesOf_of_not_moves (h : c.moves? (s.step c).2.1 ≠ some k) :
    changesOf k (s.step c).2.2 = [] := by
  cases hmoves : c.moves? (s.step c).2.1 with
  | none => rw [events_of_not_moves hmoves, changesOf_nil]
  | some id =>
    obtain ⟨p, q, -, -, -, -, hevents⟩ := step_of_moves hmoves
    have hid : id ≠ k := fun hid => h (by rw [hmoves, hid])
    rw [hevents, changesOf_moved, if_neg hid]

/-- One command leads a record that it does not remove from its state to the next, as it tells. -/
theorem leads_step (hp : s.proposals.get? k = some p) (hremove : c ≠ .remove k) :
    ∃ q, (s.step c).1.proposals.get? k = some q ∧ Leads p.state (changesOf k (s.step c).2.2) q.state := by
  by_cases hmoves : c.moves? (s.step c).2.1 = some k
  · obtain ⟨p', q, hp', -, hstep, hcan, hevents⟩ := step_of_moves hmoves
    obtain rfl := Option.some.inj (hp.symm.trans hp')
    rw [hstep, hevents, changesOf_moved, if_pos rfl]
    exact ⟨q, by rw [get?_put, if_pos rfl], .cons hcan .nil⟩
  · obtain ⟨progress, hq⟩ := get?_step_of_not_moves hp hmoves hremove
    rw [changesOf_of_not_moves hmoves]
    exact ⟨_, hq, .nil⟩

/-- Until it is removed, what is told of a record leads from its state to the one it is in. -/
theorem leads_of_not_removed (hp : s.proposals.get? k = some p) (hcs : Command.remove k ∉ cs) :
    ∃ r, (s.after cs).proposals.get? k = some r ∧ Leads p.state (changesOf k (s.told cs)) r.state := by
  induction cs generalizing s p with
  | nil => exact ⟨p, hp, .nil⟩
  | cons c cs ih =>
    obtain ⟨hc, hcs⟩ := List.ne_and_not_mem_of_not_mem_cons hcs
    obtain ⟨q, hq, hfirst⟩ := leads_step hp hc.symm
    obtain ⟨r, hr, hrest⟩ := ih hq hcs
    rw [told_cons, changesOf_append]
    exact ⟨r, hr, hfirst.append hrest⟩

/-- The events replay the store, whatever it has been through. A command that moves a proposal tells
that move only, any other tells nothing, one that is refused changes nothing, and none touches a
record it does not name. So from the insertion of a proposal on, until it is removed, what is told of
it is a path from the state it came in to the state of its record; the path takes no way to RUNNING
or COMPLETED past LOCKED and ACCEPTED, and nothing follows a terminal state. -/
theorem events_replay (s : Store) :
    (∀ c k, c.moves? (s.step c).2.1 = some k → ∃ p q, s.proposals.get? k = some p ∧
        (s.step c).1.proposals.get? k = some q ∧
          (s.step c).2.2 = [.proposalStateChanged k p.state q.state]) ∧
      (∀ c, c.moves? (s.step c).2.1 = none → (s.step c).2.2 = []) ∧
      (∀ c, c.refuses (s.step c).2.1 = true → (s.step c).1 = s ∧ (s.step c).2.2 = []) ∧
      (∀ c k, c.subject? ≠ some k → (s.step c).1.proposals.get? k = s.proposals.get? k) ∧
      ∀ p during, (s.step (.insert p)).2.1 = true → Command.remove p.id ∉ during →
        ∃ r moves, ((s.step (.insert p)).1.after during).proposals.get? p.id = some r ∧
          changesOf p.id ((s.step (.insert p)).1.told during) = moves ∧
          Leads p.state moves r.state ∧
          (p.state = .proposed → ∀ xs a b ys, moves = xs ++ (a, b) :: ys →
            b = .running ∨ b = .completed →
            ∃ us former vs, xs = us ++ (former, .locked) :: (.locked, .accepted) :: vs) ∧
          (p.state.isTerminal = true → moves = []) ∧
          ∀ xs a b ys, moves = xs ++ (a, b) :: ys → b.isTerminal = true → ys = [] := by
  refine ⟨?_, fun c => events_of_not_moves, fun c => step_of_refuses, fun c k => step_of_subject_ne, ?_⟩
  · intro c k hmoves
    obtain ⟨p, q, hp, -, hstep, -, hevents⟩ := step_of_moves hmoves
    exact ⟨p, q, hp, by rw [hstep, get?_put, if_pos rfl], hevents⟩
  · intro p during hkept hremove
    obtain ⟨r, hr, hleads⟩ := leads_of_not_removed (get?_of_inserted hkept) hremove
    refine ⟨r, _, hr, rfl, hleads, ?_, hleads.eq_nil_of_terminal, ?_⟩
    · intro hproposed xs a b ys hmoves hb
      rw [hproposed, hmoves] at hleads
      exact hleads.through_accepted hb
    · intro xs a b ys hmoves hb
      rw [hmoves] at hleads
      exact hleads.of_append_cons.2.2.eq_nil_of_terminal hb

/-- A task is locked, accepted, run and done. -/
def finishing : List Command :=
  [.lock ⟨"t", "x", "a"⟩ 0, .transition "t" .accepted (.ofExecutor "a"), .transition "t" .running .none,
    .transition "t" .completed .none]

theorem finishing_replays :
    changesOf "t" (((empty .default 100).step (.insert (.new "t" "p" .default 0))).1.told finishing) =
        [(.proposed, .locked), (.locked, .accepted), (.accepted, .running), (.running, .completed)] ∧
      ∃ r, (((empty .default 100).step (.insert (.new "t" "p" .default 0))).1.after finishing).proposals.get?
          "t" = some r ∧
        Leads .proposed
          [(.proposed, .locked), (.locked, .accepted), (.accepted, .running), (.running, .completed)]
          r.state := by
  obtain ⟨-, -, -, -, hreplay⟩ := events_replay (empty .default 100)
  obtain ⟨r, moves, hr, hmoves, hleads, -⟩ :=
    hreplay (.new "t" "p" .default 0) finishing rfl (by simp [finishing])
  have htold : changesOf "t"
      (((empty .default 100).step (.insert (.new "t" "p" .default 0))).1.told finishing) =
        [(.proposed, .locked), (.locked, .accepted), (.accepted, .running), (.running, .completed)] := rfl
  refine ⟨htold, r, hr, ?_⟩
  rw [← htold]
  exact hmoves ▸ hleads

end Store

end TaskSwarm
