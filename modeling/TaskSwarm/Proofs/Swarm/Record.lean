/-
The proposer's record over a run.

The record that a node keeps of a proposal of its own is made once, by the
operation that created the proposal, and is gone for good once it is removed:
the id is fresh, and a create keeps its proposal once. A record of somebody
else's under the same id keeps it from ever being made (`Run.foreign_stays`).
So two looks at the record of its own see the same life of the same proposal,
with whatever happened in between, which is what the arguments about requests
that read first and move later need.
-/
import TaskSwarm.Proofs.Store.History
import TaskSwarm.Proofs.Swarm.History

set_option autoImplicit false

namespace TaskSwarm.Swarm

open TaskSwarm.Node

variable {w : Swarm} {h newer older : List Event} {a b : Activity} {n : PeerId} {k : String}
  {p q r : Proposal}

/-! ## One event and one record -/

/-- Only a command to the store of a node changes it. -/
theorem store_cases (event : Event) (h : List Event) (n : PeerId) :
    (w.store (event :: h) n = w.store h n ∧
        ∀ a c answer, event = .asked a (.store c) answer → a.peer ≠ n) ∨
      ∃ a c answer, event = .asked a (.store c) answer ∧ a.peer = n ∧
        w.store (event :: h) n = ((w.store h n).step c).1 := by
  cases event with
  | began b => exact Or.inl ⟨rfl, fun _ _ _ heq => by cases heq⟩
  | ended b o => exact Or.inl ⟨rfl, fun _ _ _ heq => by cases heq⟩
  | asked b e answer =>
    cases e with
    | store c =>
      by_cases hn : n = b.peer
      · exact Or.inr ⟨b, c, answer, rfl, hn.symm, if_pos hn⟩
      · refine Or.inl ⟨if_neg hn, fun _ _ _ heq => ?_⟩
        cases heq
        exact Ne.symm hn
    | _ => exact Or.inl ⟨rfl, fun _ _ _ heq => by cases heq⟩

/-- Only a command to the store of the node changes a record it keeps. -/
theorem record_of_some (event : Event) (hp : w.record h n k = some p) :
    w.record (event :: h) n k = some p ∨
      ∃ a c answer timeout, event = .asked a (.store c) answer ∧ a.peer = n ∧
        ((c = .remove k ∧ w.record (event :: h) n k = none) ∨
          ∃ q, p.Changes timeout k c q ∧ w.record (event :: h) n k = some q) := by
  simp only [record] at hp ⊢
  obtain ⟨hsame, -⟩ | ⟨a, c, answer, rfl, hpeer, hstep⟩ := store_cases (w := w) event h n
  · rw [hsame]
    exact Or.inl hp
  · rw [hstep]
    rcases Store.step_of_some hp c with hkept | hremoved | hchanged
    · exact Or.inl hkept
    · exact Or.inr ⟨a, c, answer, (w.store h n).lockTimeout, rfl, hpeer, Or.inl hremoved⟩
    · exact Or.inr ⟨a, c, answer, (w.store h n).lockTimeout, rfl, hpeer, Or.inr hchanged⟩

/-- A look-up finds the record as it is, and leaves it so. -/
theorem Run.record_of_get {found : Option Proposal}
    (run : w.Run (.asked a (.store (.get k)) found :: h)) :
    w.record (.asked a (.store (.get k)) found :: h) a.peer k = found := by
  simp only [record, store, if_pos]
  exact run.possible.symm

/-- A move that succeeds finds a record that can be moved, and leaves it moved. -/
theorem Run.record_of_transition {target : TaskState} {patch : Patch}
    (run : w.Run (.asked a (.store (.transition k target patch)) (.ok q) :: h)) :
    ∃ p, w.record h a.peer k = some p ∧ Store.moved p target patch = .ok q ∧
      w.record (.asked a (.store (.transition k target patch)) (.ok q) :: h) a.peer k = some q := by
  obtain ⟨p, hp, hmoved, hq⟩ := Store.of_reply_transition run.possible.symm
  refine ⟨p, hp, hmoved, ?_⟩
  simpa only [record, store, if_pos] using hq

/-- An insertion is refused exactly where something is kept under the id. -/
theorem Run.kept_iff {kept : Bool} (run : w.Run (.asked a (.store (.insert p)) kept :: h)) :
    kept = true ↔ w.record h a.peer p.id = none := by
  rw [show kept = _ from run.possible]
  exact Store.inserted_iff

/-- A proposal that was taken in is the record under its id. -/
theorem Run.record_of_insert (run : w.Run (.asked a (.store (.insert p)) true :: h)) :
    w.record (.asked a (.store (.insert p)) true :: h) a.peer p.id = some p := by
  simp only [record, store, if_pos]
  exact Store.get?_of_inserted run.possible.symm

/-- Only an insertion at the node makes a record. -/
theorem record_of_none (event : Event) (hp : w.record h n k = none) :
    w.record (event :: h) n k = none ∨
      ∃ a p answer, event = .asked a (.store (.insert p)) answer ∧ a.peer = n ∧ p.id = k ∧
        w.record (event :: h) n k = some p := by
  simp only [record] at hp ⊢
  obtain ⟨hsame, -⟩ | ⟨a, c, answer, rfl, hpeer, hstep⟩ := store_cases (w := w) event h n
  · rw [hsame]
    exact Or.inl hp
  · rw [hstep]
    rcases Store.step_of_none hp c with hnone | ⟨p, rfl, hid, hsome⟩
    · exact Or.inl hnone
    · exact Or.inr ⟨a, p, answer, rfl, hpeer, hid, hsome⟩

/-- A record that is there before and after an event stays as it is or is changed by a command. -/
theorem eq_or_changes {event : Event} (hp : w.record h n k = some p)
    (hr : w.record (event :: h) n k = some r) :
    r = p ∨ ∃ a c answer timeout, event = .asked a (.store c) answer ∧ a.peer = n ∧
      p.Changes timeout k c r := by
  rcases record_of_some event hp with hsame | ⟨a, c, answer, timeout, hevent, hpeer, hafter⟩
  · rw [hsame] at hr
    exact Or.inl (Option.some.inj hr).symm
  · rcases hafter with ⟨-, hnone⟩ | ⟨q, hchanges, hsome⟩
    · rw [hnone] at hr; cases hr
    · rw [hsome] at hr; cases hr
      exact Or.inr ⟨a, c, answer, timeout, hevent, hpeer, hchanges⟩

/-- A record that is there after an event and was not before was inserted. -/
theorem inserted_of_none {event : Event} (hp : w.record h n k = none)
    (hr : w.record (event :: h) n k = some r) :
    r.id = k ∧ ∃ a kept, event = .asked a (.store (.insert r)) kept ∧ a.peer = n := by
  rcases record_of_none event hp with hnone | ⟨a, q, kept, rfl, hpeer, hid, hsome⟩
  · rw [hnone] at hr; cases hr
  · rw [hsome] at hr; cases hr
    exact ⟨hid, a, kept, rfl, hpeer⟩

/-- A record that was not there before was taken in by the insertion that made it. -/
theorem Run.taken_in {event : Event} (run : w.Run (event :: h)) (hp : w.record h n k = none)
    (hr : w.record (event :: h) n k = some r) :
    r.id = k ∧ ∃ a, event = .asked a (.store (.insert r)) true ∧ a.peer = n := by
  obtain ⟨rfl, a, kept, rfl, rfl⟩ := inserted_of_none hp hr
  obtain rfl : kept = true := run.kept_iff.2 hp
  exact ⟨rfl, a, rfl, rfl⟩

/-- Whatever comes to pass, the store of a node is one that commands have led to. -/
theorem reached_store (w : Swarm) (h : List Event) (n : PeerId) : (w.store h n).Reached := by
  induction h with
  | nil => exact Store.reached_empty _ _
  | cons event h ih =>
    obtain ⟨hsame, -⟩ | ⟨a, c, answer, -, -, hstep⟩ := store_cases (w := w) event h n
    · rw [hsame]; exact ih
    · rw [hstep]; exact ih.step c

/-- A record stands under its own id. -/
theorem id_of_record (hp : w.record h n k = some p) : p.id = k :=
  (reached_store w h n).keyed k p hp

/-! ## A proposal is kept once by who made it -/

/-- What is never said twice was said to one. -/
theorem Run.asked_inj {e : Effect} {answer : e.Answer} (run : w.Run h)
    (hnew : ∀ {a older}, w.Run (.asked a e answer :: older) → ∀ b, .asked b e answer ∉ older)
    (ha : .asked a e answer ∈ h) (hb : .asked b e answer ∈ h) : a = b := by
  induction h with
  | nil => cases ha
  | cons event h ih =>
    rcases List.mem_cons.1 ha with ha' | ha' <;> rcases List.mem_cons.1 hb with hb' | hb'
    · rw [← ha'] at hb'
      cases hb'
      rfl
    · subst ha'
      exact absurd hb' (hnew run b)
    · subst hb'
      exact absurd ha' (hnew run a)
    · exact ih run.tail ha' hb'

/-- Nobody is given an id twice. -/
theorem Run.freshId_inj (run : w.Run h) {id : String} (ha : .asked a .freshId id ∈ h)
    (hb : .asked b .freshId id ∈ h) : a = b :=
  run.asked_inj (e := .freshId) (fun run => run.possible) ha hb

/-- Nobody is given a token twice. -/
theorem Run.freshToken_inj (run : w.Run h) {token : String} (ha : .asked a .freshToken token ∈ h)
    (hb : .asked b .freshToken token ∈ h) : a = b :=
  run.asked_inj (e := .freshToken) (fun run => run.possible) ha hb

/-- A create keeps nothing but a new proposal under an id that it was given. -/
theorem Run.insert_of_create (run : w.Run h) {kept : Bool} {spec : TaskSpec}
    (hmem : .asked a (.store (.insert p)) kept ∈ h) (ho : a.operation = .create spec) :
    .asked a .freshId p.id ∈ h ∧ ∃ t, p = .new p.id a.peer spec t := by
  obtain ⟨newer, older, rfl⟩ := List.append_of_mem hmem
  have hpermits := run.of_append.permits
  cases hpermits with
  | @create spec' id t ho' hfresh hfirst =>
    rw [ho] at ho'
    cases ho'
    refine ⟨List.mem_append_right _ (List.mem_cons_of_mem _ (got_own_iff.1 hfresh)), t, ?_⟩
    rw [w.named]
    rfl
  | receive ho' => rw [ho] at ho'; cases ho'

/-- Who keeps a proposal in its own name has created it. -/
theorem Run.create_of_insert (run : w.Run h) {kept : Bool}
    (hmem : .asked a (.store (.insert p)) kept ∈ h) (hown : p.proposer = a.peer) :
    ∃ spec, a.operation = .create spec := by
  obtain ⟨newer, older, rfl⟩ := List.append_of_mem hmem
  cases run.of_append.permits with
  | create ho => exact ⟨_, ho⟩
  | receive ho hforeign => exact absurd (hown.trans (w.named _).symm) hforeign

/-- Who keeps a proposal in somebody else's name was sent it. -/
theorem Run.handle_of_insert (run : w.Run h) {kept : Bool}
    (hmem : .asked a (.store (.insert p)) kept ∈ h) (hforeign : p.proposer ≠ a.peer) :
    ∃ sender, a.operation = .handle sender (.proposal p) := by
  obtain ⟨newer, older, rfl⟩ := List.append_of_mem hmem
  cases run.of_append.permits with
  | create ho => exact absurd (w.named _) hforeign
  | receive ho => exact ⟨_, ho⟩

/-- Who keeps a proposal in its own name keeps a new one. -/
theorem Run.new_of_insert {kept : Bool} (run : w.Run (.asked a (.store (.insert p)) kept :: h))
    (hown : p.proposer = a.peer) : ∃ spec t, p = .new p.id a.peer spec t := by
  obtain ⟨spec, ho⟩ := run.create_of_insert List.mem_cons_self hown
  obtain ⟨-, t, heq⟩ := run.insert_of_create List.mem_cons_self ho
  exact ⟨spec, t, heq⟩

/-- A proposal is kept once by who made it. -/
theorem Run.insert_once {kept kept' : Bool} (run : w.Run (.asked a (.store (.insert p)) kept :: h))
    (hown : p.proposer = a.peer) (hmem : .asked b (.store (.insert q)) kept' ∈ h)
    (hown' : q.proposer = b.peer) : q.id ≠ p.id := by
  intro hid
  obtain ⟨spec, ho⟩ := run.create_of_insert List.mem_cons_self hown
  obtain ⟨spec', ho'⟩ := run.tail.create_of_insert hmem hown'
  have ha := (run.insert_of_create List.mem_cons_self ho).1
  have hb := (run.tail.insert_of_create hmem ho').1
  rw [hid] at hb
  -- One id was given to one activity, and a create keeps only one proposal.
  have heq : a = b := run.freshId_inj ha (List.mem_cons_of_mem _ hb)
  subst heq
  cases run.permits with
  | create _ _ hfirst => exact hfirst _ (got_own_iff.2 hmem) _ rfl
  | receive ho'' => rw [ho] at ho''; cases ho''

/-- Whoever removes a record has tried to keep it. -/
theorem Run.insert_of_remove (run : w.Run h) {answer : Option Proposal}
    (hmem : .asked a (.store (.remove k)) answer ∈ h) :
    ∃ p kept, .asked a (.store (.insert p)) kept ∈ h ∧ p.id = k ∧ p.proposer = a.peer := by
  obtain ⟨newer, older, rfl⟩ := List.append_of_mem hmem
  obtain ⟨spec, p, kept, ho, hgot, hid⟩ := run.of_append.permits
  have hkept : .asked a (.store (.insert p)) kept ∈ older := got_own_iff.1 hgot
  obtain ⟨-, t, heq⟩ := run.of_append.tail.insert_of_create hkept ho
  exact ⟨p, kept, List.mem_append_right _ (List.mem_cons_of_mem _ hkept), hid, by rw [heq]; rfl⟩

/-- A record was made by an insertion, of a proposal with the same id, proposer and workload. -/
theorem inserted_of_record (hr : w.record h n k = some r) :
    ∃ a p kept, .asked a (.store (.insert p)) kept ∈ h ∧ a.peer = n ∧ p.id = k ∧
      Proposal.Kin p r := by
  induction h generalizing r with
  | nil => cases hr
  | cons event h ih =>
    -- Both ways a record goes on leave id, proposer and workload alone.
    have hkin : ∀ q, w.record h n k = some q → Proposal.Kin q r →
        ∃ a p kept, .asked a (.store (.insert p)) kept ∈ event :: h ∧ a.peer = n ∧ p.id = k ∧
          Proposal.Kin p r := by
      intro q hq hkin
      obtain ⟨a, p, kept, hmem, hpeer, hid, hbefore⟩ := ih hq
      exact ⟨a, p, kept, List.mem_cons_of_mem _ hmem, hpeer, hid, hbefore.trans hkin⟩
    cases hbefore : w.record h n k with
    | none =>
      obtain ⟨hid, a, kept, rfl, hpeer⟩ := inserted_of_none hbefore hr
      exact ⟨a, r, kept, List.mem_cons_self, hpeer, hid, .refl r⟩
    | some q =>
      rcases eq_or_changes hbefore hr with rfl | ⟨a, c, answer, timeout, -, -, hchanges⟩
      · exact hkin _ hbefore (.refl _)
      · exact hkin _ hbefore hchanges.kin

/-- The record of a proposal of its own was made by a create of that node. -/
theorem Run.own_created (run : w.Run h) (hr : w.record h n k = some r) (hown : r.proposer = n) :
    ∃ a spec t kept, .asked a (.store (.insert (.new k n spec t))) kept ∈ h ∧ a.peer = n ∧
      a.operation = .create spec ∧ Proposal.Kin (.new k n spec t) r := by
  obtain ⟨a, p, kept, hmem, hpeer, hid, hkin⟩ := inserted_of_record hr
  have hpown : p.proposer = a.peer := (hkin.proposer.symm.trans hown).trans hpeer.symm
  obtain ⟨spec, ho⟩ := run.create_of_insert hmem hpown
  obtain ⟨-, t, heq⟩ := run.insert_of_create hmem ho
  rw [hid, hpeer] at heq
  subst heq
  exact ⟨a, spec, t, kept, hmem, hpeer, ho, hkin⟩

/-- The record of a proposal of its own is a step of the same record before, or was just made. -/
theorem own_before {event : Event}
    (hr : w.record (event :: h) n k = some r) (hown : r.proposer = n) :
    (∃ p, w.record h n k = some p ∧ p.proposer = n) ∨
      ∃ a kept, event = .asked a (.store (.insert r)) kept ∧ a.peer = n ∧ w.record h n k = none := by
  cases hbefore : w.record h n k with
  | none =>
    obtain ⟨-, a, kept, hevent, hpeer⟩ := inserted_of_none hbefore hr
    exact Or.inr ⟨a, kept, hevent, hpeer, rfl⟩
  | some p =>
    refine Or.inl ⟨p, rfl, ?_⟩
    rcases eq_or_changes hbefore hr with rfl | ⟨a, c, answer, timeout, -, -, hchanges⟩
    · exact hown
    · exact hchanges.kin.proposer.symm.trans hown

/-- Once there, the record of a proposal of its own is never made again: if it is there now, it was
there all along. -/
theorem Run.own_since {event : Event} (run : w.Run (event :: newer ++ older))
    (hp : w.record older n k = some p) (hpown : p.proposer = n)
    (hr : w.record (event :: newer ++ older) n k = some r) (hrown : r.proposer = n) :
    ∃ q, w.record (newer ++ older) n k = some q ∧ q.proposer = n := by
  rcases own_before hr hrown with hbefore | ⟨a, kept, rfl, hpeer, -⟩
  · exact hbefore
  · -- The record was made before; making it again would take its fresh id a second time.
    have hrun : w.Run older := run.of_suffix (List.suffix_append _ _)
    obtain ⟨b, spec, t, kept', hmem, hbpeer, -, hkin⟩ := hrun.own_created hp hpown
    have hid : r.id = k := id_of_record hr
    have hne := run.insert_once (hrown.trans hpeer.symm) (List.mem_append_right _ hmem) hbpeer.symm
    exact absurd hid.symm hne

/-- Where somebody else's proposal once stood, none of its own ever stands. -/
theorem Run.foreign_stays (run : w.Run (newer ++ older)) (hp : w.record older n k = some p)
    (hforeign : p.proposer ≠ n) (hr : w.record (newer ++ older) n k = some r) : r.proposer ≠ n := by
  -- The record may go away. What removes it has itself kept a proposal of its own under the id, so
  -- the invariant says of an id without a record that its one insertion of that kind is spent.
  suffices hinv : (∀ r, w.record (newer ++ older) n k = some r → r.proposer ≠ n) ∧
      ((∃ r, w.record (newer ++ older) n k = some r) ∨
        ∃ a q kept, .asked a (.store (.insert q)) kept ∈ newer ++ older ∧ q.id = k ∧
          q.proposer = n ∧ a.peer = n) from hinv.1 r hr
  clear hr
  induction newer with
  | nil =>
    refine ⟨fun r hr => ?_, Or.inl ⟨p, hp⟩⟩
    rw [List.nil_append, hp] at hr
    cases hr
    exact hforeign
  | cons event newer ih =>
    obtain ⟨hnotown, hkept⟩ := ih run.tail
    refine ⟨fun r hr hown => ?_, ?_⟩
    · rcases own_before hr hown with ⟨q, hq, hqown⟩ | ⟨a, kept, rfl, hpeer, hnone⟩
      · exact hnotown q hq hqown
      · -- One of its own is being inserted, where there is none.
        rcases hkept with ⟨q, hq⟩ | ⟨b, q, kept', hmem, hqid, hqown, hbpeer⟩
        · cases hnone.symm.trans hq
        · have hne := run.insert_once (hown.trans hpeer.symm) hmem (hqown.trans hbpeer.symm)
          exact hne (hqid.trans (id_of_record hr).symm)
    · rcases hkept with ⟨q, hq⟩ | ⟨b, q, kept', hmem, hq⟩
      · rcases record_of_some event hq with hsame | ⟨a, c, answer, timeout, rfl, hpeer, hafter⟩
        · exact Or.inl ⟨q, hsame⟩
        · rcases hafter with ⟨rfl, -⟩ | ⟨q', -, hsome⟩
          · obtain ⟨q', kept, hmem, hid, hown⟩ := run.insert_of_remove List.mem_cons_self
            exact Or.inr ⟨a, q', kept, hmem, hid, hown.trans hpeer, hpeer⟩
          · exact Or.inl ⟨q', hsome⟩
      · exact Or.inr ⟨b, q, kept', List.mem_cons_of_mem _ hmem, hq⟩

/-- A record stays, and stays a record of the same proposal, until it is removed. -/
theorem record_kept (hp : w.record older n k = some p)
    (hkept : ∀ a answer, .asked a (.store (.remove k)) answer ∈ newer → a.peer ≠ n) :
    ∃ r, w.record (newer ++ older) n k = some r ∧ Proposal.Kin p r := by
  induction newer with
  | nil => exact ⟨p, hp, .refl p⟩
  | cons event newer ih =>
    obtain ⟨q, hq, hkin⟩ := ih fun a answer hmem => hkept a answer (List.mem_cons_of_mem _ hmem)
    obtain hsame | ⟨a, c, answer, timeout, rfl, hpeer, ⟨rfl, -⟩ | ⟨r, hchanges, hr⟩⟩ :=
      record_of_some event hq
    · exact ⟨q, hsame, hkin⟩
    · exact absurd hpeer (hkept a answer List.mem_cons_self)
    · exact ⟨r, hr, hkin.trans hchanges.kin⟩

/-! ## What was seen of a record -/

/-- What was looked up was the record at that point. -/
theorem Run.record_of_looked (run : w.Run h) {id : String} (hlooked : Looked (own a h) id p) :
    ∃ older, .asked a (.store (.get id)) (some p) :: older <:+ h ∧
      w.record (.asked a (.store (.get id)) (some p) :: older) a.peer id = some p := by
  obtain ⟨newer, older, rfl⟩ := List.append_of_mem (got_own_iff.1 hlooked)
  exact ⟨older, List.suffix_append _ _, run.of_append.record_of_get⟩

theorem Run.id_of_looked (run : w.Run h) {id : String} (hlooked : Looked (own a h) id p) :
    p.id = id := by
  obtain ⟨older, -, hp⟩ := run.record_of_looked hlooked
  exact id_of_record hp

/-- What was moved was the record from then on. -/
theorem Run.record_of_moved (run : w.Run h) {id : String} {target : TaskState} {patch : Patch}
    (hmoved : Moved (own a h) id target patch q) :
    ∃ older, .asked a (.store (.transition id target patch)) (.ok q) :: older <:+ h ∧
      w.record (.asked a (.store (.transition id target patch)) (.ok q) :: older) a.peer id =
        some q := by
  obtain ⟨newer, older, rfl⟩ := List.append_of_mem (got_own_iff.1 hmoved)
  obtain ⟨p, -, -, hq⟩ := run.of_append.record_of_transition
  exact ⟨older, List.suffix_append _ _, hq⟩

theorem Run.id_of_moved (run : w.Run h) {id : String} {target : TaskState} {patch : Patch}
    (hmoved : Moved (own a h) id target patch q) : q.id = id := by
  obtain ⟨older, -, hq⟩ := run.record_of_moved hmoved
  exact id_of_record hq

/-- If the record is one of its own now, so is everything that was seen of it before. -/
theorem Run.own_of_looked (run : w.Run h) (hlooked : Looked (own a h) k p)
    (hr : w.record h a.peer k = some r) (hown : r.proposer = a.peer) : p.proposer = a.peer := by
  obtain ⟨older, ⟨newer, rfl⟩, hp⟩ := run.record_of_looked hlooked
  exact Classical.byContradiction fun hforeign => run.foreign_stays hp hforeign hr hown

end TaskSwarm.Swarm
