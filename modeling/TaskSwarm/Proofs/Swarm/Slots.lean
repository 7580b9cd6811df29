/-
Slots over a run.

A slot is known by the id of the task alone, and it is taken by one activity and given
back by another, so what has to be shown is that nobody else's hands get to it. Who
gives a slot back has taken it, or runs the task for who has
(`Run.holds_of_finish`). Who removes a proposal frees its slot too, but removes only
what it has created; nobody takes a slot for that as long as nobody takes on what its
own node proposes (`Run.untaken_of_remove`). By these two a slot is taken exactly while
somebody holds it, and one holds it (`Run.holders`).
-/
import TaskSwarm.Proofs.Node.Slots
import TaskSwarm.Proofs.Store.Slots
import TaskSwarm.Proofs.Swarm.Play
import TaskSwarm.Proofs.Swarm.Record
import TaskSwarm.Proofs.Swarm.Standing

set_option autoImplicit false

namespace TaskSwarm.Swarm

open TaskSwarm.Node

variable {w : Swarm} {h newer older : List Event} {a b c : Activity} {n : PeerId} {k : String}
  {p q : Proposal}

/-! ## Who holds a slot -/

/-- An activity, or the one that runs the task it has taken on. -/
def Continues (a b : Activity) : Prop :=
  b = a ∨ (∃ place, b.origin = .spawned a.number place) ∧ ∃ q, b.operation = .job (.run q)

/-- A claim of a node has taken the slot of a task, and neither it nor who runs the task for it has
given the slot back. -/
structure Holds (h : List Event) (n : PeerId) (k : String) (a : Activity) : Prop where
  peer : a.peer = n
  claimed : a.operation.claimed? = some k
  taken : ∃ r, .asked a (.store (.reserve k r)) true ∈ h
  kept : ∀ b, b.peer = n → Continues a b → .asked b (.store (.finish k)) () ∉ h

/-- What happens takes no slot away from who holds it, unless it gives the slot back for them. -/
theorem Holds.cons {event : Event} (hholds : Holds h n k a)
    (hkept : ∀ b, b.peer = n → event ≠ .asked b (.store (.finish k)) ()) :
    Holds (event :: h) n k a := by
  refine ⟨hholds.peer, hholds.claimed, hholds.taken.imp fun r => List.mem_cons_of_mem _, ?_⟩
  intro b hpeer hcont hmem
  obtain rfl | hmem := List.mem_cons.1 hmem
  · exact hkept b hpeer rfl
  · exact hholds.kept b hpeer hcont hmem

/-- Who holds a slot held it before, or has just taken it. -/
theorem Holds.of_cons {event : Event} (hholds : Holds (event :: h) n k a) :
    Holds h n k a ∨ ∃ r, event = .asked a (.store (.reserve k r)) true := by
  obtain ⟨hpeer, hclaimed, ⟨r, htaken⟩, hkept⟩ := hholds
  obtain rfl | htaken := List.mem_cons.1 htaken
  · exact Or.inr ⟨r, rfl⟩
  · exact Or.inl ⟨hpeer, hclaimed, ⟨r, htaken⟩, fun b hb hcont hmem =>
      hkept b hb hcont (List.mem_cons_of_mem _ hmem)⟩

/-! ## One activity -/

theorem Run.slotAsks {e : Effect} {answer : e.Answer} (run : w.Run (.asked a e answer :: h))
    (hwork : e.isSlotWork = true) : SlotAsks a.operation (own a h) e :=
  run.asksAs (obeys_slots _ _) hwork

theorem Run.slotEnds {o : Outcome Json} (run : w.Run (.ended a o :: h)) :
    SlotEnds a.operation (own a h) := run.endsAs (obeys_slots _ _)

/-- A claim gives its slot back or hands it on, and does so once. -/
theorem Run.release_once (run : w.Run h) (ho : a.operation.claimed? = some k) {e e' : Effect}
    {x : e.Answer} {x' : e'.Answer} {first second : List Event} (he : e.isRelease = true)
    (he' : e'.isRelease = true) (hfirst : .asked a e x :: first <:+ h)
    (hsecond : .asked a e' x' :: second <:+ h) :
    (.asked a e x :: first : List Event) = .asked a e' x' :: second := by
  have hnot : ∀ {e e' : Effect} {x : e.Answer} {x' : e'.Answer} {older}, e.isRelease = true →
      e'.isRelease = true → .asked a e' x' :: older <:+ h → .asked a e x ∉ older := by
    intro e e' x x' older he he' hsuffix hmem
    have hasks := (run.of_suffix hsuffix).slotAsks (Effect.isSlotWork_of_isRelease he')
    exact absurd he (Bool.eq_false_iff.1 (hasks.none_released ho he' _ (got_own_iff.2 hmem)))
  obtain hsuffix | hsuffix := List.suffix_or_suffix_of_suffix hfirst hsecond
  · obtain heq | hsuffix := List.suffix_cons_iff.1 hsuffix
    · exact heq
    · exact absurd (hsuffix.subset List.mem_cons_self) (hnot he he' hsecond)
  · obtain heq | hsuffix := List.suffix_cons_iff.1 hsuffix
    · exact heq.symm
    · exact absurd (hsuffix.subset List.mem_cons_self) (hnot he' he hfirst)

/-- Who sets a task running holds its slot, and hands it on. -/
theorem Run.handed_on (run : w.Run (.asked a (.spawn (.run q)) () :: h)) :
    a.operation.claimed? = some q.id ∧ ∃ r, .asked a (.store (.reserve q.id r)) true ∈ h := by
  have hspawns : Spawns (w.settings a.peer) a.operation (own a h) (.run q) := run.permits
  cases run.slotAsks rfl with
  | @handOn id _ ho htook _ =>
  cases hspawns with
  | run hclaiming _ hmoved _ =>
  obtain ⟨id', ho', hlooked⟩ := hclaiming.looked
  cases ho.symm.trans ho'
  obtain rfl : q.id = id := (run.tail.id_of_moved hmoved).trans (run.tail.id_of_looked hlooked)
  obtain ⟨r, htaken⟩ := htook
  exact ⟨ho, r, got_own_iff.1 htaken⟩

/-- A job that goes back to an activity was set going by it, at the same node. -/
theorem Run.spawned_by (run : w.Run h) (ha : .began a ∈ h) (hb : .began b ∈ h) {j : Job} {index : Nat}
    (ho : b.operation = .job j) (horigin : b.origin = .spawned a.number index) :
    b.peer = a.peer ∧ ∃ older, .asked a (.spawn j) () :: older <:+ h ∧
      b.origin = .spawned a.number (place a older) := by
  obtain ⟨parent, older, hspawn, hpeer, hparent⟩ := run.began_job hb ho
  have hbegan := run.began_of_mem (hspawn.subset List.mem_cons_self)
  obtain ⟨hnumber, -⟩ := Origin.spawned.inj (horigin.symm.trans hparent)
  obtain rfl := run.number_inj ha hbegan hnumber
  exact ⟨hpeer.symm, older, hspawn, hparent⟩

theorem Run.continues_cases (run : w.Run h) (ha : .began a ∈ h) (hb : .began b ∈ h)
    (hcont : Continues a b) : b = a ∨ ∃ q older, .asked a (.spawn (.run q)) () :: older <:+ h ∧
      b.origin = .spawned a.number (place a older) := by
  obtain rfl | ⟨⟨index, horigin⟩, q, ho⟩ := hcont
  · exact Or.inl rfl
  · obtain ⟨-, older, hspawn, horigin⟩ := run.spawned_by ha hb ho horigin
    exact Or.inr ⟨q, older, hspawn, horigin⟩

/-- **Nobody gives back what is not theirs.** Who gives a slot back holds it, or runs the task for who
does. -/
theorem Run.holds_of_finish (run : w.Run (.asked b (.store (.finish k)) () :: h)) :
    ∃ a, Holds h b.peer k a ∧ Continues a b := by
  have hbegan : .began b ∈ h := run.began_of_asked
  have hrun : w.Run h := run.tail
  cases run.slotAsks rfl with
  | giveBack ho htook hnone =>
    obtain ⟨r, htaken⟩ := htook
    refine ⟨b, ⟨rfl, ho, ⟨r, got_own_iff.1 htaken⟩, fun c hpeer hcont hfinish => ?_⟩, Or.inl rfl⟩
    -- It has done nothing about slots but take this one.
    obtain rfl | ⟨q, older, hspawn, -⟩ :=
      hrun.continues_cases hbegan (hrun.began_of_mem hfinish) hcont
    · cases hnone _ (got_own_iff.2 hfinish)
    · cases hnone _ (got_own_iff.2 (hspawn.subset List.mem_cons_self))
  | @finish p ho hnone =>
    obtain ⟨a, older, hspawn, hpeer, horigin⟩ := hrun.began_job hbegan ho
    have hparent := hrun.began_of_mem (hspawn.subset List.mem_cons_self)
    obtain ⟨hclaimed, r, htaken⟩ := (hrun.of_suffix hspawn).handed_on
    have htaken := hspawn.subset (List.mem_cons_of_mem _ htaken)
    refine ⟨a, ⟨hpeer, hclaimed, ⟨r, htaken⟩, fun c hcpeer hcont hfinish => ?_⟩,
      Or.inr ⟨⟨_, horigin⟩, p, ho⟩⟩
    -- The claim has handed the slot on, once, so whoever gave it back before is `b` itself.
    obtain rfl | ⟨q, older', hspawn', horigin'⟩ :=
      hrun.continues_cases hparent (hrun.began_of_mem hfinish) hcont
    · obtain ⟨before, hfinish⟩ := exists_suffix_of_mem hfinish
      cases hrun.release_once hclaimed rfl rfl hspawn hfinish
    · cases hrun.release_once hclaimed rfl rfl hspawn hspawn'
      obtain rfl := hrun.origin_inj (hrun.began_of_mem hfinish) hbegan
        (horigin'.trans horigin.symm) (by rw [horigin']; simp)
      cases hnone _ (got_own_iff.2 hfinish)

/-! ## What its node proposes -/

theorem Run.freshId_of_remove (run : w.Run h) {found : Option Proposal}
    (hmem : .asked a (.store (.remove k)) found ∈ h) : .asked a .freshId k ∈ h := by
  obtain ⟨newer, older, rfl⟩ := List.append_of_mem hmem
  obtain ⟨spec, p, kept, ho, hgot, rfl⟩ := run.of_append.permits
  have hfresh := (run.of_append.tail.insert_of_create (got_own_iff.1 hgot) ho).1
  exact List.mem_append_right _ (List.mem_cons_of_mem _ hfresh)

/-- What a claim finds is somebody else's if its user takes on nothing of its own: a claim that the
node has set going itself is for a proposal that it was sent. -/
theorem Run.foreign_of_claimed (run : w.Run (.asked a (.store (.get k)) (some p) :: h))
    (ho : a.operation.claimed? = some k)
    (hforeign : a.operation = .attempt k → p.proposer ≠ a.peer) : p.proposer ≠ a.peer := by
  unfold Operation.claimed? at ho
  split at ho
  · next id hop =>
    cases ho
    exact hforeign hop
  · next id delay hop =>
    cases ho
    obtain ⟨b, older, hspawn, hpeer, -⟩ := run.tail.began_job run.began_of_asked hop
    have hrun := run.tail.of_suffix hspawn
    have hspawns : Spawns (w.settings b.peer) b.operation (own b older) (.claim k delay) :=
      hrun.permits
    cases hspawns with
    | @claim sender p₀ _ hb hgot =>
    obtain ⟨first, hsuffix⟩ := exists_suffix_of_mem (got_own_iff.1 hgot)
    have hinsert := hrun.tail.of_suffix hsuffix
    have hp₀ : p₀.proposer ≠ b.peer := by
      cases hinsert.permits with
      | create hb' => rw [hb] at hb'; cases hb'
      | receive _ hne => rwa [w.named] at hne
    have hfound := run.record_of_get
    rw [← hpeer] at hfound ⊢
    obtain ⟨later, heq⟩ := (hsuffix.trans (List.suffix_cons _ _)).trans
      (hspawn.trans (List.suffix_cons (.asked a (.store (.get p₀.id)) (some p)) h))
    rw [← heq] at run hfound
    exact run.foreign_stays hinsert.record_of_insert hp₀ hfound
  · cases ho

/-- What a node proposes is new to it: there is nothing yet under the id that the proposal was given. -/
def DrawsFresh (w : Swarm) (h : List Event) (n : PeerId) : Prop :=
  ∀ a p kept older, .asked a (.store (.insert p)) kept :: older <:+ h → a.peer = n →
    p.proposer = n → w.record older n p.id = none

theorem DrawsFresh.of_suffix (hfresh : w.DrawsFresh h n) (hsuffix : older <:+ h) : w.DrawsFresh older n :=
  fun a p kept before hinsert => hfresh a p kept before (hinsert.trans hsuffix)

/-- A record is removed once, by who has made it. -/
theorem Run.remove_once {found found' : Option Proposal}
    (run : w.Run (.asked b (.store (.remove k)) found :: h))
    (hmem : .asked c (.store (.remove k)) found' ∈ h) : False := by
  have hfresh : .asked b .freshId k ∈ h := by simpa using run.freshId_of_remove List.mem_cons_self
  obtain rfl := run.tail.freshId_inj (run.tail.freshId_of_remove hmem) hfresh
  cases run.slotAsks rfl with
  | drop _ hnone => cases hnone _ (got_own_iff.2 hmem)

/-- **What is removed was one of its own all along.** Where a node draws fresh ids and removes a proposal,
nothing else was ever found under the id before. -/
theorem Run.own_of_remove {found : Option Proposal}
    (run : w.Run (.asked b (.store (.remove k)) found :: h)) (hfresh : w.DrawsFresh h b.peer)
    (hsuffix : older <:+ h) (hq : w.record older b.peer k = some q) : q.proposer = b.peer := by
  have hrun : w.Run h := run.tail
  obtain ⟨p, kept, hmem, hid, hown⟩ := run.insert_of_remove List.mem_cons_self
  replace hmem : .asked b (.store (.insert p)) kept ∈ h := by simpa using hmem
  obtain ⟨first, hinsert⟩ := exists_suffix_of_mem hmem
  obtain rfl : kept = true := (hrun.of_suffix hinsert).kept_iff.2 (hfresh b p kept first hinsert rfl hown)
  have hkept := (hrun.of_suffix hinsert).record_of_insert
  rw [hid] at hkept
  obtain ⟨between, rfl⟩ | ⟨between, heq⟩ := List.suffix_or_suffix_of_suffix hinsert hsuffix
  · -- It was kept before, and is still there: nobody else removes it.
    obtain ⟨q', hq', hkin⟩ := record_kept hkept fun c found' hmem _ =>
      run.remove_once (hsuffix.subset (List.mem_append_left _ hmem))
    rw [hq] at hq'
    cases hq'
    exact hkin.proposer.trans hown
  · -- What somebody else has there keeps it from ever being kept.
    have hrun' := hrun.of_suffix hinsert
    rw [← heq] at hrun' hkept
    exact Classical.byContradiction fun hforeign => hrun'.foreign_stays hq hforeign hkept hown

/-- A node's own proposals are kept apart from those it takes on: its user has it take on none of
them, and there is nothing yet under the id of a new one. No member was given that id before, and ids
are drawn so that nobody else comes up with one. -/
structure OwnApart (w : Swarm) (h : List Event) (n : PeerId) : Prop where
  foreign : ∀ a id p, .asked a (.store (.get id)) (some p) ∈ h → a.peer = n →
    a.operation = .attempt id → p.proposer ≠ n
  new : ∀ a p kept older, .asked a (.store (.insert p)) kept :: older <:+ h → a.peer = n →
    p.proposer = n → w.record older n p.id = none

/-- Whether what an event finds is somebody else's, and what it was to keep was kept. -/
def isApart (n : PeerId) : Event → Bool
  | .asked _ (.store (.get _)) (some p) => p.proposer ≠ n
  | .asked _ (.store (.insert _)) kept => kept
  | _ => true

theorem Run.ownApart_of_all (run : w.Run h) (hall : h.all (isApart n) = true) : w.OwnApart h n := by
  refine ⟨fun a id p hget _ _ => ?_, fun a p kept older hinsert hpeer _ => ?_⟩
  · simpa [isApart] using List.all_eq_true.1 hall _ hget
  · have hkept := List.all_eq_true.1 hall _ (hinsert.subset List.mem_cons_self)
    exact hpeer ▸ (run.of_suffix hinsert).kept_iff.1 hkept

theorem OwnApart.of_suffix (hapart : w.OwnApart h n) (hsuffix : older <:+ h) : w.OwnApart older n :=
  ⟨fun a id p hget => hapart.foreign a id p (hsuffix.subset hget),
    DrawsFresh.of_suffix hapart.new hsuffix⟩

/-- **Nobody takes a slot for what its own node proposes**, so who removes a proposal frees none. -/
theorem Run.untaken_of_remove {found : Option Proposal}
    (run : w.Run (.asked b (.store (.remove k)) found :: h)) (hapart : w.OwnApart h b.peer)
    {r : Requirements} (hpeer : a.peer = b.peer) : .asked a (.store (.reserve k r)) true ∉ h := by
  intro htaken
  -- The one who takes the slot has found somebody else's under its id.
  obtain ⟨before, hreserve⟩ := exists_suffix_of_mem htaken
  have hrun : w.Run _ := run.tail.of_suffix hreserve
  cases hrun.slotAsks rfl with
  | @take _ q hclaimed hlooked hspared =>
  obtain ⟨earlier, hget, hq⟩ := hrun.tail.record_of_looked hlooked
  have hget : .asked a (.store (.get k)) (some q) :: earlier <:+ h :=
    hget.trans ((List.suffix_cons _ _).trans hreserve)
  have hforeign : q.proposer ≠ a.peer := (run.tail.of_suffix hget).foreign_of_claimed hclaimed
    fun ho => hpeer.symm ▸ hapart.foreign a k q (hget.subset List.mem_cons_self) hpeer ho
  rw [hpeer] at hq hforeign
  exact hforeign (run.own_of_remove hapart.new hget hq)

/-! ## What is taken is held -/

theorem Run.isActive_cons_iff {event : Event} (run : w.Run (event :: h)) :
    (w.store (event :: h) n).isActive k = true ↔
      (∃ a c answer, event = .asked a (.store c) answer ∧ a.peer = n ∧ c.takes? answer = some k) ∨
        ((w.store h n).isActive k = true ∧ ∀ a c answer, event = .asked a (.store c) answer →
          a.peer = n → c.frees? ≠ some k) := by
  obtain ⟨hsame, hnot⟩ | ⟨a, c, answer, rfl, rfl, hstep⟩ := store_cases (w := w) event h n
  · rw [hsame]
    constructor
    · intro hactive
      exact Or.inr ⟨hactive, fun a c answer heq hpeer => absurd hpeer (hnot a c answer heq)⟩
    · rintro (⟨a, c, answer, heq, hpeer, -⟩ | ⟨hactive, -⟩)
      · exact absurd hpeer (hnot a c answer heq)
      · exact hactive
  · obtain rfl : answer = ((w.store h a.peer).step c).2.1 := run.possible
    rw [hstep, Store.isActive_step_iff]
    refine or_congr ⟨fun htakes => ⟨a, c, _, rfl, rfl, htakes⟩, ?_⟩
      (and_congr_right fun _ => ⟨?_, fun hfrees => hfrees a c _ rfl rfl⟩)
    · rintro ⟨_, _, _, ⟨⟩, -, htakes⟩
      exact htakes
    · rintro hfrees _ _ _ ⟨⟩ -
      exact hfrees

/-- Who takes a slot takes it for the task it has found, where there is room for it. -/
theorem Run.reserved {r : Requirements}
    (run : w.Run (.asked a (.store (.reserve k r)) true :: h)) :
    a.operation.claimed? = some k ∧
      (∃ p, .asked a (.store (.get k)) (some p) ∈ h ∧ r = p.requirements) ∧
        (w.store h a.peer).isActive k = false ∧ (w.store h a.peer).HasRoom r := by
  have hroom := Store.reserved_iff.1 (Eq.symm run.possible)
  cases run.slotAsks rfl with
  | @take _ p hclaimed hlooked _ => exact ⟨hclaimed, ⟨p, got_own_iff.1 hlooked, rfl⟩, hroom⟩

theorem Run.holds_of_reserve {r : Requirements}
    (run : w.Run (.asked a (.store (.reserve k r)) true :: h)) :
    Holds (.asked a (.store (.reserve k r)) true :: h) a.peer k a := by
  have hrun : w.Run h := run.tail
  have hbegan : .began a ∈ h := run.began_of_asked
  cases run.slotAsks rfl with
  | take hclaimed _ hnone =>
  refine ⟨rfl, hclaimed, ⟨_, List.mem_cons_self⟩, fun b _ hcont hfinish => ?_⟩
  replace hfinish : .asked b (.store (.finish k)) () ∈ h := by simpa using hfinish
  obtain rfl | ⟨q, older, hspawn, -⟩ :=
    hrun.continues_cases hbegan (hrun.began_of_mem hfinish) hcont
  · cases hnone _ (got_own_iff.2 hfinish)
  · cases hnone _ (got_own_iff.2 (hspawn.subset List.mem_cons_self))

/-- **A slot is taken exactly while somebody holds it, and one holds it.** -/
theorem Run.holders (run : w.Run h) (hapart : w.OwnApart h n) :
    (∀ k, (w.store h n).isActive k = true ↔ ∃ a, Holds h n k a) ∧
      ∀ k a b, Holds h n k a → Holds h n k b → a = b := by
  induction h with
  | nil =>
    refine ⟨fun k => ⟨fun hactive => ?_, fun ⟨a, hholds⟩ => ?_⟩, fun k a b hholds => ?_⟩
    · cases hactive
    · obtain ⟨r, htaken⟩ := hholds.taken
      cases htaken
    · obtain ⟨r, htaken⟩ := hholds.taken
      cases htaken
  | cons event h ih =>
    replace hapart := hapart.of_suffix (List.suffix_cons _ _)
    obtain ⟨hactive, hone⟩ := ih run.tail hapart
    refine ⟨fun k => ?_, fun k a b ha hb => ?_⟩
    · rw [run.isActive_cons_iff, hactive]
      constructor
      · rintro (⟨a, c, answer, rfl, rfl, htakes⟩ | ⟨⟨a, hholds⟩, hfrees⟩)
        · obtain ⟨r, heq⟩ := Command.eq_of_takes? htakes
          cases heq
          exact ⟨a, run.holds_of_reserve⟩
        · exact ⟨a, hholds.cons fun b hpeer heq => hfrees b _ _ heq hpeer rfl⟩
      · rintro ⟨a, hholds⟩
        obtain hbefore | ⟨r, rfl⟩ := hholds.of_cons
        · refine Or.inr ⟨⟨a, hbefore⟩, ?_⟩
          rintro b c answer rfl rfl hfrees
          obtain rfl | rfl := Command.eq_of_frees? hfrees
          · obtain ⟨a', hholds', hcont⟩ := run.holds_of_finish
            obtain rfl := hone k a' a hholds' hbefore
            exact hholds.kept b rfl hcont List.mem_cons_self
          · obtain ⟨r, htaken⟩ := hbefore.taken
            exact run.untaken_of_remove hapart hbefore.peer htaken
        · exact Or.inl ⟨a, _, _, rfl, hholds.peer, rfl⟩
    · -- A slot that is held is not free to be taken.
      have hfree : ∀ {a b r}, Holds h n k a → b.peer = n →
          event ≠ .asked b (.store (.reserve k r)) true := by
        rintro a b r hholds rfl rfl
        have hfree := run.reserved.2.2.1
        rw [(hactive k).2 ⟨a, hholds⟩] at hfree
        cases hfree
      obtain ha' | ⟨r, hevent⟩ := ha.of_cons <;> obtain hb' | ⟨r', hevent'⟩ := hb.of_cons
      · exact hone k a b ha' hb'
      · exact absurd hevent' (hfree ha' hb.peer)
      · exact absurd hevent (hfree hb' ha.peer)
      · cases hevent.symm.trans hevent'
        rfl

/-! ## No more slots than allowed, and none left over -/

/-- As long as fewer tasks are not allowed than before, there are no more slots taken than tasks
allowed for. -/
theorem activeCount_le (hle : (w.store older n).activeCount ≤ (w.store older n).capabilities.maxTasks)
    (hmax : ∀ event later, event :: later <:+ newer ++ older → older <:+ later →
      (w.store later n).capabilities.maxTasks ≤ (w.store (event :: later) n).capabilities.maxTasks) :
    (w.store (newer ++ older) n).activeCount ≤ (w.store (newer ++ older) n).capabilities.maxTasks := by
  induction newer with
  | nil => exact hle
  | cons event newer ih =>
    have hbefore := ih fun event' later hlater => hmax event' later (hlater.trans (List.suffix_cons _ _))
    have hnow := hmax event (newer ++ older) List.suffix_rfl (List.suffix_append _ _)
    rw [List.cons_append]
    obtain ⟨hsame, -⟩ | ⟨a, c, answer, -, -, hstep⟩ := store_cases (w := w) event (newer ++ older) n
    · rwa [hsame]
    · rw [hstep] at hnow ⊢
      exact Store.activeCount_le_step hbefore hnow

/-- No claim of a node is in progress: each has ended, and who was set running by one has ended, too. -/
structure Idle (h : List Event) (n : PeerId) : Prop where
  claims : ∀ a, .began a ∈ h → a.peer = n → a.operation.claimed? ≠ none → ∃ o, .ended a o ∈ h
  runs : ∀ a q older, .asked a (.spawn (.run q)) () :: older <:+ h → a.peer = n →
    ∃ b o, b.operation = .job (.run q) ∧ b.origin = .spawned a.number (place a older) ∧ .ended b o ∈ h

theorem Run.not_holds_of_idle (run : w.Run h) (hidle : Idle h n) : ¬ Holds h n k a := by
  rintro ⟨hpeer, hclaimed, ⟨r, htaken⟩, hkept⟩
  have hbegan := run.began_of_mem htaken
  obtain ⟨o, hended⟩ := hidle.claims a hbegan hpeer (by rw [hclaimed]; simp)
  obtain ⟨before, hended⟩ := exists_suffix_of_mem hended
  have hown := run.own_of_ended hended
  have htook : Took (own a before) k := ⟨r, hown ▸ got_own_iff.2 htaken⟩
  obtain hfinish | ⟨q, hspawn⟩ := (run.of_suffix hended).slotEnds.claim hclaimed htook
  · rw [← hown] at hfinish
    exact hkept a hpeer (Or.inl rfl) (got_own_iff.1 hfinish)
  · rw [← hown] at hspawn
    obtain ⟨older, hspawn⟩ := exists_suffix_of_mem (got_own_iff.1 hspawn)
    obtain ⟨hclaimed', -⟩ := (run.of_suffix hspawn).handed_on
    cases hclaimed.symm.trans hclaimed'
    -- Who was set running has given the slot back before it ended.
    obtain ⟨b, o', hb, horigin, hended'⟩ := hidle.runs a q older hspawn hpeer
    have hbbegan := run.began_of_mem hended'
    obtain ⟨before', hended'⟩ := exists_suffix_of_mem hended'
    have hfinish := (run.of_suffix hended').slotEnds.run hb
    rw [← run.own_of_ended hended'] at hfinish
    obtain ⟨hbpeer, -⟩ := run.spawned_by hbegan hbbegan hb horigin
    exact hkept b (hbpeer.trans hpeer) (Or.inr ⟨⟨_, horigin⟩, q, hb⟩) (got_own_iff.1 hfinish)

/-! ## The slots of a node -/

/-- The slots of a node are neither lost nor shared, and no more of them are taken than there are. -/
structure SlotsKept (w : Swarm) (h : List Event) (n : PeerId) : Prop where
  /-- A slot is taken exactly while a claim that took it, or who runs the task for it, is yet to give
  it back. -/
  held : ∀ k, (w.store h n).isActive k = true ↔ ∃ a, Holds h n k a
  one : ∀ k a b, Holds h n k a → Holds h n k b → a = b
  /-- A slot is given back by who holds it, or by who runs the task for them. -/
  released : ∀ b k older, .asked b (.store (.finish k)) () :: older <:+ h → b.peer = n →
    ∃ a, Holds older n k a ∧ Continues a b
  /-- A proposal that is removed holds no slot. -/
  dropped : ∀ b k found older, .asked b (.store (.remove k)) found :: older <:+ h → b.peer = n →
    (w.store older n).isActive k = false
  idle : Idle h n → (w.store h n).active = .empty
  /-- A slot is taken by a claim for what it has found, where there is room by the capabilities and
  fewer slots are taken than tasks allowed for. -/
  room : ∀ a k r older, .asked a (.store (.reserve k r)) true :: older <:+ h → a.peer = n →
    a.operation.claimed? = some k ∧
      (∃ p, .asked a (.store (.get k)) (some p) ∈ older ∧ r = p.requirements) ∧
        (w.store older n).isActive k = false ∧ (w.store older n).HasRoom r
  /-- Once there are no more slots taken than tasks allowed for, that stays so while the number of
  tasks allowed for is not lowered. -/
  bound : ∀ older, older <:+ h →
    (w.store older n).activeCount ≤ (w.store older n).capabilities.maxTasks →
    (∀ event later, event :: later <:+ h → older <:+ later →
      (w.store later n).capabilities.maxTasks ≤ (w.store (event :: later) n).capabilities.maxTasks) →
    (w.store h n).activeCount ≤ (w.store h n).capabilities.maxTasks

/-- **Slots are kept.** A node that keeps its own proposals apart from those it takes on keeps its
slots, whatever happens in the swarm. -/
theorem Run.slotsKept (run : w.Run h) (hapart : w.OwnApart h n) : w.SlotsKept h n := by
  obtain ⟨hheld, hone⟩ := run.holders hapart
  refine ⟨hheld, hone, ?released, ?dropped, ?idle, ?room, ?bound⟩
  case released =>
    rintro b k older hfinish rfl
    exact (run.of_suffix hfinish).holds_of_finish
  case dropped =>
    rintro b k found older hremove rfl
    have holder : older <:+ h := (List.suffix_cons _ _).trans hremove
    rw [← Bool.not_eq_true, ((run.of_suffix holder).holders (hapart.of_suffix holder)).1]
    rintro ⟨a, hholds⟩
    obtain ⟨r, htaken⟩ := hholds.taken
    exact (run.of_suffix hremove).untaken_of_remove (hapart.of_suffix holder) hholds.peer htaken
  case idle =>
    refine fun hidle => SortedMap.ext_get? fun k => ?_
    have hfree : (w.store h n).isActive k = false := by
      rw [← Bool.not_eq_true, hheld]
      rintro ⟨a, hholds⟩
      exact run.not_holds_of_idle hidle hholds
    simpa [Store.isActive, SortedMap.contains] using hfree
  case room =>
    rintro a k r older hreserve rfl
    exact (run.of_suffix hreserve).reserved
  case bound =>
    rintro older ⟨newer, rfl⟩ hle hmax
    exact activeCount_le hle hmax

/-- Surroundings in which there is nobody else. -/
def alone : (e : Effect) → Option e.Answer
  | .knownPeers => some []
  | e => calm "" e

/-- `a` takes on a task of `p`, while it proposes one that nobody hears of. -/
def takingOn : List Turn :=
  [.outsider "a" "x" (.proposal (.new "t" "p" (echo []) 0)), .go 0 (calm ""), .go 0 (calm ""),
    .user "a" (.create (echo [])), .go 3 (calm "s"), .go 3 (calm ""), .go 3 (calm ""),
    .user "a" (.attempt "t"), .go 7 (calm ""), .go 7 (calm ""),
    .go 3 alone, .go 3 (calm ""), .go 3 alone, .go 3 (calm "")]

theorem slot_held : (among ["a"]).OwnApart ((among ["a"]).played takingOn) "a" ∧
    (among ["a"]).SlotsKept ((among ["a"]).played takingOn) "a" ∧
      ∃ a, Holds ((among ["a"]).played takingOn) "a" "t" a := by
  have run := run_played (w := among ["a"]) takingOn
  have hapart : (among ["a"]).OwnApart ((among ["a"]).played takingOn) "a" := run.ownApart_of_all rfl
  have hslots := run.slotsKept hapart
  have hactive : ((among ["a"]).store ((among ["a"]).played takingOn) "a").isActive "t" = true := rfl
  exact ⟨hapart, hslots, (hslots.held "t").1 hactive⟩

end TaskSwarm.Swarm
