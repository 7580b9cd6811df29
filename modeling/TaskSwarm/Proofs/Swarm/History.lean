/-
What a run says about its activities.

An activity has one number and, unless it comes from outside, an origin of its
own; what is left of its program follows from its own part of the run
(`Standing.obeys`), and so every effect in a run is one its operation may ask
for at that point, and every outcome one it may end with. `began_job` and
`began_handle` go back from an activity to the one that set it going: from here
on a proof follows requests and jobs to where they come from without looking at
a program.
-/
import TaskSwarm.Proofs.Node.Duties
import TaskSwarm.Proofs.Swarm.Run

set_option autoImplicit false

namespace TaskSwarm

open Classical in
/-- An event as a part of what one activity has been told. -/
noncomputable def Event.entry? (a : Activity) : Event → Option Entry
  | .asked b e answer => if b = a then some ⟨e, answer⟩ else none
  | _ => none

namespace Swarm

open TaskSwarm.Node

variable {w : Swarm} {h newer older : List Event} {a b : Activity}

/-! ## Parts of a run -/

theorem Run.tail {event : Event} (run : w.Run (event :: h)) : w.Run h := by
  cases run <;> assumption

theorem Run.of_append (run : w.Run (newer ++ older)) : w.Run older := by
  induction newer with
  | nil => exact run
  | cons event newer ih => exact ih run.tail

theorem Run.of_suffix (run : w.Run h) (hsuffix : older <:+ h) : w.Run older := by
  obtain ⟨newer, rfl⟩ := hsuffix
  exact run.of_append

/-- What came before something that happened is a part of the run. -/
theorem suffix_append_cons {event : Event} : older <:+ newer ++ event :: older :=
  (List.suffix_cons _ _).trans (List.suffix_append _ _)

theorem exists_suffix_of_mem {event : Event} (hmem : event ∈ h) : ∃ older, event :: older <:+ h := by
  obtain ⟨newer, older, rfl⟩ := List.append_of_mem hmem
  exact ⟨older, List.suffix_append _ _⟩

theorem Standing.began_mem {p : Program (Outcome Json)} (st : w.Standing a h p) : .began a ∈ h := by
  induction st with
  | began => exact List.mem_cons_self
  | asked answer st ih => exact List.mem_cons_of_mem _ ih
  | other hne st ih => exact List.mem_cons_of_mem _ ih

/-- Whatever happens is the doing of an activity that has begun. -/
theorem Run.began_of_mem (run : w.Run h) {event : Event} (hmem : event ∈ h) :
    .began event.activity ∈ h := by
  induction run with
  | nil => simp at hmem
  | begin run hnumber horigin hopens ih =>
    rcases List.mem_cons.1 hmem with rfl | hmem
    · exact List.mem_cons_self
    · exact List.mem_cons_of_mem _ (ih hmem)
  | ask run st hpossible ih =>
    rcases List.mem_cons.1 hmem with rfl | hmem
    · exact List.mem_cons_of_mem _ st.began_mem
    · exact List.mem_cons_of_mem _ (ih hmem)
  | finish run st ih =>
    rcases List.mem_cons.1 hmem with rfl | hmem
    · exact List.mem_cons_of_mem _ st.began_mem
    · exact List.mem_cons_of_mem _ (ih hmem)

@[simp] theorem began_mem_asked {e : Effect} {answer : e.Answer} :
    .began a ∈ (.asked b e answer :: h : List Event) ↔ .began a ∈ h := by simp

@[simp] theorem began_mem_ended {o : Outcome Json} :
    .began a ∈ (.ended b o :: h : List Event) ↔ .began a ∈ h := by simp

theorem Run.began_of_asked {e : Effect} {answer : e.Answer} (run : w.Run (.asked a e answer :: h)) :
    .began a ∈ h := by
  cases run with
  | ask run st hpossible => exact st.began_mem

/-- A number stands for one activity. -/
theorem Run.number_inj (run : w.Run h) (ha : .began a ∈ h) (hb : .began b ∈ h)
    (hnumber : a.number = b.number) : a = b := by
  induction run with
  | nil => simp at ha
  | begin run hfresh horigin hopens ih =>
    rcases List.mem_cons.1 ha with ha' | ha' <;> rcases List.mem_cons.1 hb with hb' | hb'
    · cases ha'; cases hb'; rfl
    -- A number that has just been given out was not in use.
    · cases ha'; exact absurd hnumber.symm (hfresh b hb')
    · cases hb'; exact absurd hnumber (hfresh a ha')
    · exact ih ha' hb'
  | ask run st hpossible ih => exact ih (began_mem_asked.1 ha) (began_mem_asked.1 hb)
  | finish run st ih => exact ih (began_mem_ended.1 ha) (began_mem_ended.1 hb)

/-- What an activity was set going by has set only it going. -/
theorem Run.origin_inj (run : w.Run h) (ha : .began a ∈ h) (hb : .began b ∈ h)
    (horigin : a.origin = b.origin) (hinside : a.origin ≠ .outside) : a = b := by
  induction run with
  | nil => simp at ha
  | begin run hnumber hfresh hopens ih =>
    rcases List.mem_cons.1 ha with ha' | ha' <;> rcases List.mem_cons.1 hb with hb' | hb'
    · cases ha'; cases hb'; rfl
    · cases ha'; exact absurd (hfresh b hb' horigin.symm) hinside
    · cases hb'; exact absurd (horigin.trans (hfresh a ha' horigin)) hinside
    · exact ih ha' hb'
  | ask run st hpossible ih => exact ih (began_mem_asked.1 ha) (began_mem_asked.1 hb)
  | finish run st ih => exact ih (began_mem_ended.1 ha) (began_mem_ended.1 hb)

/-- Of two things that happened, one happened before the other. -/
theorem exists_between {e e' : Event} (hmem : e ∈ h) (hmem' : e' ∈ h) :
    e = e' ∨ (∃ newer between older, h = newer ++ e :: (between ++ e' :: older)) ∨
      ∃ newer between older, h = newer ++ e' :: (between ++ e :: older) := by
  obtain ⟨newer, older, rfl⟩ := List.append_of_mem hmem
  rcases List.mem_append.1 hmem' with hmem' | hmem'
  · obtain ⟨first, between, rfl⟩ := List.append_of_mem hmem'
    refine Or.inr (Or.inr ⟨first, between, older, ?_⟩)
    rw [List.append_assoc, List.cons_append]
  · rcases List.mem_cons.1 hmem' with heq | hmem'
    · exact Or.inl heq.symm
    · obtain ⟨between, last, rfl⟩ := List.append_of_mem hmem'
      exact Or.inr (Or.inl ⟨newer, between, last, rfl⟩)

/-- Of two points of a run, one lies before the other. -/
theorem eq_or_mem_of_suffix {e e' : Event} {first second : List Event} (hfirst : e :: first <:+ h)
    (hsecond : e' :: second <:+ h) : first = second ∨ e ∈ second ∨ e' ∈ first := by
  rcases List.suffix_or_suffix_of_suffix hfirst hsecond with hsuffix | hsuffix
  · rcases List.suffix_cons_iff.1 hsuffix with heq | hsuffix
    · cases heq
      exact Or.inl rfl
    · exact Or.inr (Or.inl (hsuffix.subset List.mem_cons_self))
  · rcases List.suffix_cons_iff.1 hsuffix with heq | hsuffix
    · cases heq
      exact Or.inl rfl
    · exact Or.inr (Or.inr (hsuffix.subset List.mem_cons_self))

/-! ## What an activity has been told -/

/-- What an activity has asked for and been told, the latest first. -/
noncomputable def own (a : Activity) (h : List Event) : List Entry := h.filterMap (Event.entry? a)

theorem got_own_iff {e : Effect} {answer : e.Answer} :
    Got (own a h) e answer ↔ .asked a e answer ∈ h := by
  unfold Got own
  rw [List.mem_filterMap]
  constructor
  · rintro ⟨event, hmem, hentry⟩
    cases event with
    | began b => simp [Event.entry?] at hentry
    | ended b o => simp [Event.entry?] at hentry
    | asked b e' answer' =>
      simp only [Event.entry?] at hentry
      split at hentry
      · next heq =>
        cases hentry
        exact heq ▸ hmem
      · cases hentry
  · intro hmem
    exact ⟨_, hmem, by simp [Event.entry?]⟩

theorem own_cons_of_ne {event : Event} (hne : event.activity ≠ a) : own a (event :: h) = own a h := by
  have hentry : Event.entry? a event = none := by
    cases event <;> simp_all [Event.entry?, Event.activity]
  unfold own
  rw [List.filterMap_cons_none hentry]

theorem own_began : own a (.began b :: h) = own a h :=
  List.filterMap_cons_none rfl

theorem own_asked {e : Effect} {answer : e.Answer} :
    own a (.asked a e answer :: h) = ⟨e, answer⟩ :: own a h := by
  have hentry : Event.entry? a (.asked a e answer) = some ⟨e, answer⟩ := by simp [Event.entry?]
  unfold own
  rw [List.filterMap_cons_some hentry]

theorem own_subset (hsuffix : older <:+ h) : own a older ⊆ own a h := by
  obtain ⟨newer, rfl⟩ := hsuffix
  unfold own
  rw [List.filterMap_append]
  exact List.subset_append_right _ _

/-- Who has not begun has been told nothing. -/
theorem Run.own_eq_nil (run : w.Run h) (hfresh : .began a ∉ h) : own a h = [] := by
  refine List.eq_nil_iff_forall_not_mem.2 ?_
  rintro ⟨e, answer⟩ hmem
  -- Whoever was told something had begun before.
  have hmem : Event.asked a e answer ∈ h := got_own_iff.1 hmem
  exact hfresh (run.began_of_mem hmem)

/-- Where an activity stands, it still keeps to whatever its program keeps to. -/
theorem Standing.obeysAs {asks : List Entry → Effect → Prop} {ends : List Entry → Outcome Json → Prop}
    {p : Program (Outcome Json)} (st : w.Standing a h p) (run : w.Run h)
    (hprogram : (a.operation.program (w.settings a.peer)).Obeys asks ends []) :
    p.Obeys asks ends (own a h) := by
  -- On where it stands: its own part of the run grows exactly when its program goes on.
  induction st with
  | began =>
    cases run with
    | begin run hnumber horigin hopens =>
      rw [own_began, run.own_eq_nil fun hmem => hnumber a hmem rfl]
      exact hprogram
  | asked answer st ih =>
    rw [own_asked]
    exact (ih run.tail).2 answer
  | other hne st ih =>
    rw [own_cons_of_ne hne]
    exact ih run.tail

/-- Where an activity stands, it still keeps to what its operation may do. -/
theorem Standing.obeys {p : Program (Outcome Json)} (st : w.Standing a h p) (run : w.Run h) :
    p.Obeys (Permits (w.settings a.peer) a.operation) (Ends (w.settings a.peer) a.operation)
      (own a h) :=
  st.obeysAs run (obeys_program _ _)

/-- What an activity asks for is what its program may ask for at that point. -/
theorem Run.asksAs {asks : List Entry → Effect → Prop} {ends : List Entry → Outcome Json → Prop}
    {e : Effect} {answer : e.Answer} (run : w.Run (.asked a e answer :: h))
    (hprogram : (a.operation.program (w.settings a.peer)).Obeys asks ends []) :
    asks (own a h) e := by
  cases run with
  | ask run st hpossible => exact (st.obeysAs run hprogram).1

/-- An activity ends with what its program may end with. -/
theorem Run.endsAs {asks : List Entry → Effect → Prop} {ends : List Entry → Outcome Json → Prop}
    {o : Outcome Json} (run : w.Run (.ended a o :: h))
    (hprogram : (a.operation.program (w.settings a.peer)).Obeys asks ends []) :
    ends (own a h) o := by
  cases run with
  | finish run st => exact st.obeysAs run hprogram

/-- An effect is one that its activity may ask for at that point. -/
theorem Run.permits {e : Effect} {answer : e.Answer} (run : w.Run (.asked a e answer :: h)) :
    Permits (w.settings a.peer) a.operation (own a h) e := run.asksAs (obeys_program _ _)

theorem Run.possible {e : Effect} {answer : e.Answer} (run : w.Run (.asked a e answer :: h)) :
    w.Possible h a e answer := by
  cases run with
  | ask run st hpossible => exact hpossible

/-- An activity ends as it may. -/
theorem Run.ends {o : Outcome Json} (run : w.Run (.ended a o :: h)) :
    Ends (w.settings a.peer) a.operation (own a h) o := run.endsAs (obeys_program _ _)

/-! ## Where an activity comes from -/

/-- An activity that has begun was open to begin at that point. -/
theorem Run.opens (run : w.Run h) (hmem : .began a ∈ h) :
    ∃ older, .began a :: older <:+ h ∧ w.Opens older a := by
  obtain ⟨newer, older, rfl⟩ := List.append_of_mem hmem
  cases run.of_append with
  | begin run hnumber horigin hopens => exact ⟨older, List.suffix_append _ _, hopens⟩

/-- Only members do anything. -/
theorem Run.isMember (run : w.Run h) (hmem : .began a ∈ h) : w.isMember a.peer := by
  induction run generalizing a with
  | nil => simp at hmem
  | begin run hnumber horigin hopens ih =>
    rcases List.mem_cons.1 hmem with hmem | hmem
    · cases hmem
      cases hopens with
      | user hmember => exact hmember
      | outsider hmember => exact hmember
      | spawned heq =>
        -- A job stays at the node of the activity that set it going.
        subst heq
        have hparent := ih (run.began_of_mem (List.mem_append_right _ List.mem_cons_self))
        exact hparent
      | request st hcall hmember => exact hmember
    · exact ih hmem
  | ask run st hpossible ih => exact ih (began_mem_asked.1 hmem)
  | finish run st ih => exact ih (began_mem_ended.1 hmem)

/-- A job was set going by an activity of the same node. -/
theorem Run.began_job (run : w.Run h) (hmem : .began a ∈ h) {j : Job} (hj : a.operation = .job j) :
    ∃ b older, .asked b (.spawn j) () :: older <:+ h ∧ b.peer = a.peer ∧
      a.origin = .spawned b.number (place b older) := by
  obtain ⟨before, hbefore, hopens⟩ := run.opens hmem
  cases hopens with
  | user _ hnojob => exact absurd hj (hnojob j)
  | outsider => cases hj
  | @spawned number b j newer older heq =>
    cases hj
    subst heq
    refine ⟨b, older, ?_, rfl, rfl⟩
    exact ((List.suffix_append _ _).trans (List.suffix_cons _ _)).trans hbefore
  | request => cases hj

/-- A request comes from outside, or was one of the calls of an effect that a member may ask for. -/
theorem Run.began_handle (run : w.Run h) (hmem : .began a ∈ h) {sender : PeerId} {m : Inbound}
    (hm : a.operation = .handle sender m) :
    (¬ w.isMember sender ∧ a.origin = .outside) ∨
      ∃ b older e i c kind, older <:+ h ∧ .began b ∈ older ∧ b.peer = sender ∧ c.peer = a.peer ∧
        Permits (w.settings b.peer) b.operation (own b older) e ∧ e.calls[i]? = some c ∧
          Inbound.ofBytes kind c.bytes = .ok m ∧ a.origin = .request b.number (place b older) i c := by
  obtain ⟨older, hsuffix, hopens⟩ := run.opens hmem
  have hrun : w.Run older := (run.of_suffix hsuffix).tail
  cases hopens with
  | user _ _ hnohandle => exact absurd hm (hnohandle sender m)
  | outsider _ hsender =>
    cases hm
    exact Or.inl ⟨hsender, rfl⟩
  | spawned => cases hm
  | request st hcall hmember hkind hbytes =>
    cases hm
    refine Or.inr ⟨_, older, _, _, _, _, (List.suffix_cons _ _).trans hsuffix, st.began_mem, rfl, rfl,
      (st.obeys hrun).1, hcall, hbytes, rfl⟩

end Swarm

end TaskSwarm
