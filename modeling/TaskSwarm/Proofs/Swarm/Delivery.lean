/-
Deliveries of a proposal, over a run.

A proposal may be delivered any number of times, by anybody and with any contents, and the
deliveries get in each other's way. One command decides: the store keeps what it is asked
to keep where it has nothing under the id, and whatever a delivery tells or sets going it
does after its own proposal was kept, at a place of its program that it passes once. All
else a delivery asks for leaves every store as it was (`Run.store_of_delivery`), so
deliveries after the first come to nothing until the record is removed.
-/
import TaskSwarm.Proofs.Node.Delivery
import TaskSwarm.Proofs.Node.Saying
import TaskSwarm.Proofs.Swarm.Endings

set_option autoImplicit false

namespace TaskSwarm

/-- What is not kept changes nothing. -/
theorem Store.step_of_not_inserted {st : Store} {p : Proposal} (h : (st.step (.insert p)).2.1 = false) :
    (st.step (.insert p)).1 = st := by
  simp only [step] at h ⊢
  split
  · rfl
  · next hnew =>
    rw [if_neg hnew] at h
    cases h

namespace Swarm

open TaskSwarm.Node

variable {w : Swarm} {h newer older between : List Event} {a b : Activity} {n sender : PeerId}
  {k : String} {p q r : Proposal} {e : Effect} {answer : e.Answer} {o : Outcome Json}

/-! ## One delivery -/

theorem Run.deliveryAsks (run : w.Run (.asked a e answer :: older))
    (ho : a.operation = .handle sender (.proposal p)) :
    p.validateReceived = .ok () ∧ DeliveryAsks (w.settings a.peer) sender p (own a older) e :=
  run.asksAs (obeys_delivery ho)

/-- A delivery has kept nothing but its own proposal, which is fit to be kept and somebody else's. -/
theorem Run.kept_by_delivery {kept : Bool} (run : w.Run (.asked a (.store (.insert q)) kept :: older))
    (ho : a.operation = .handle sender (.proposal p)) :
    q = p ∧ p.validateReceived = .ok () ∧ p.proposer ≠ a.peer := by
  obtain ⟨hvalid, hasks⟩ := run.deliveryAsks ho
  generalize own a older = past at hasks
  cases hasks with
  | keeps hforeign =>
    rw [w.named] at hforeign
    exact ⟨rfl, hvalid, hforeign⟩

/-- A delivery whose proposal was not kept leaves every store as it was, and tells nothing and sets
nothing going. -/
theorem Run.store_of_delivery (run : w.Run (.asked a e answer :: older))
    (ho : a.operation = .handle sender (.proposal p))
    (hnot : .asked a (.store (.insert p)) true ∉ (.asked a e answer :: older : List Event)) :
    w.store (.asked a e answer :: older) = w.store older ∧ e.event? = none ∧ ∀ job, e ≠ .spawn job := by
  obtain ⟨-, hasks⟩ := run.deliveryAsks ho
  have hkept : Got (own a older) (.store (.insert p)) true →
      .asked a (.store (.insert p)) true ∈ (.asked a e answer :: older : List Event) :=
    fun hgot => List.mem_cons_of_mem _ (got_own_iff.1 hgot)
  generalize own a older = past at hasks hkept
  -- All but these two it asks for only after its proposal was kept.
  cases hasks with
  | time => exact ⟨rfl, rfl, by simp⟩
  | keeps =>
    refine ⟨?_, rfl, by simp⟩
    cases answer with
    | true => exact absurd List.mem_cons_self hnot
    | false =>
      funext m
      by_cases hm : m = a.peer
      · subst hm
        simp only [store, if_pos]
        exact Store.step_of_not_inserted run.possible.symm
      · simp only [store, if_neg hm]
  | _ => exact absurd (hkept (by simp [Got, takenIn])) hnot

/-- A delivery leaves what is there as it is. -/
theorem Run.record_of_delivery (run : w.Run (.asked a e answer :: older))
    (ho : a.operation = .handle sender (.proposal p)) (hr : w.record older n k = some r) :
    w.record (.asked a e answer :: older) n k = some r := by
  obtain hsame | ⟨_, c, answer', timeout, hevent, -, hafter⟩ := record_of_some (.asked a e answer) hr
  · exact hsame
  cases hevent
  obtain ⟨-, hasks⟩ := run.deliveryAsks ho
  generalize own a older = past at hasks
  -- It asks its store for nothing but to keep the proposal and to say whether there is room.
  obtain ⟨rfl, -⟩ | ⟨q, hchanges, -⟩ := hafter
  · cases hasks
  · cases hasks <;> cases hchanges

/-- A delivery that has taken its proposal in tells so next, and does not end before. -/
theorem Run.told_of_kept (run : w.Run (newer ++ .asked a (.store (.insert p)) true :: older))
    (ho : a.operation = .handle sender (.proposal p)) :
    (own a newer = [] ∧ ∀ o, .ended a o ∉ newer) ∨
      ∃ later, own a newer = later ++ [⟨.emit (.proposalReceived p.id sender p), ()⟩] := by
  obtain ⟨hnone, hended⟩ | ⟨later, ⟨e, answer⟩, hown, -, hasks⟩ := run.next_asked (obeys_delivery ho)
  · refine Or.inl ⟨hnone, fun o hmem => ?_⟩
    have hends := hended o hmem
    rw [own_asked] at hends
    generalize own a older = past at hends
    cases hends
  · rw [own_asked] at hasks
    generalize own a older = past at hasks
    cases hasks
    exact Or.inr ⟨later, hown⟩

/-- Whoever tells of a proposal that was sent has just taken it in, and has told nothing before. -/
theorem Run.kept_of_told (run : w.Run (.asked a (.emit (.proposalReceived k sender p)) () :: older)) :
    a.operation = .handle sender (.proposal p) ∧ p.id = k ∧
      (∀ event, .asked a (.emit event) () ∉ older) ∧
        ∃ between before, older = between ++ .asked a (.store (.insert p)) true :: before ∧
          own a between = [] := by
  have htells := run.asksAs (says_program _ _) _ rfl
  generalize ho : a.operation = o at htells
  cases htells
  obtain ⟨-, hasks⟩ := run.deliveryAsks ho
  generalize hpast : own a older = past at hasks
  cases hasks
  obtain ⟨between, before, heq, hnone, -⟩ := exists_of_own_cons hpast
  refine ⟨rfl, rfl, fun event hmem => ?_, between, before, heq, hnone⟩
  have hgot : Got (own a older) (.emit event) () := got_own_iff.2 hmem
  simp [Got, hpast] at hgot

/-- Whoever sets a claim going has taken the proposal in, PROPOSED, and was told that there is room for
it; and it has set nothing going before. -/
theorem Run.kept_of_claim {delay : Nat} (run : w.Run (.asked a (.spawn (.claim k delay)) () :: older)) :
    ∃ sender p, a.operation = .handle sender (.proposal p) ∧ p.id = k ∧ p.state = .proposed ∧
      .asked a (.store (.insert p)) true ∈ older ∧
        .asked a (.store (.canHandle p.requirements)) true ∈ older ∧
          ∀ job, .asked a (.spawn job) () ∉ older := by
  have hspawns : Spawns (w.settings a.peer) a.operation (own a older) (.claim k delay) := run.permits
  cases hspawns with
  | @claim sender p _ ho hgot =>
  refine ⟨sender, p, ho, rfl, ?_⟩
  simp only [← got_own_iff]
  obtain ⟨-, hasks⟩ := run.deliveryAsks ho
  generalize own a older = past at hasks hgot
  cases hasks with
  | claimsNow hopen => exact ⟨hopen, hgot, by simp [Got], by simp [Got, takenIn]⟩
  | claims hopen => exact ⟨hopen, hgot, by simp [Got], by simp [Got, takenIn]⟩

/-- What a delivery has come to by its end. -/
theorem Run.deliveryEnds (run : w.Run h) (hended : .ended a o ∈ h)
    (ho : a.operation = .handle sender (.proposal p)) :
    DeliveryEnds (w.settings a.peer) sender p (own a h) o := run.ended_as hended (obeys_delivery ho)

/-- A delivery is refused for what it holds, or acknowledged. -/
theorem Run.delivery_answered (run : w.Run h) (hended : .ended a o ∈ h)
    (ho : a.operation = .handle sender (.proposal p)) :
    (∃ e, p.validateReceived = .error e ∧ o = .error e) ∨
      (p.validateReceived = .ok () ∧ ∃ t, o = .ok (receipt p t)) := by
  have hends := run.deliveryEnds hended ho
  generalize own a h = past at hends
  cases hends with
  | refused hinvalid => exact Or.inl ⟨_, hinvalid, rfl⟩
  | own hvalid => exact Or.inr ⟨hvalid, _, rfl⟩
  | known hvalid => exact Or.inr ⟨hvalid, _, rfl⟩
  | left hvalid => exact Or.inr ⟨hvalid, _, rfl⟩
  | full hvalid => exact Or.inr ⟨hvalid, _, rfl⟩
  | claimed hvalid => exact Or.inr ⟨hvalid, _, rfl⟩

/-- A delivery of what may be kept has had the store decide whether it is. -/
theorem Run.decided_of_ended (run : w.Run h) (hended : .ended a o ∈ h)
    (ho : a.operation = .handle sender (.proposal p)) (hvalid : p.validateReceived = .ok ())
    (hforeign : p.proposer ≠ a.peer) : ∃ kept, .asked a (.store (.insert p)) kept ∈ h := by
  have hends := run.deliveryEnds hended ho
  simp only [← got_own_iff]
  generalize own a h = past at hends
  cases hends with
  | refused hinvalid => cases hinvalid.symm.trans hvalid
  | own _ hown => exact absurd (hown.trans (w.named _)) hforeign
  | known => exact ⟨false, by simp [Got]⟩
  | _ => exact ⟨true, by simp [Got, takenIn]⟩

/-- By its end a delivery has set a claim going exactly if its proposal was kept, was PROPOSED, and there
was room for it. -/
theorem Run.claim_of_ended (run : w.Run h) (hended : .ended a o ∈ h)
    (ho : a.operation = .handle sender (.proposal p)) :
    (∃ delay, .asked a (.spawn (.claim p.id delay)) () ∈ h) ↔
      .asked a (.store (.insert p)) true ∈ h ∧ p.state = .proposed ∧
        .asked a (.store (.canHandle p.requirements)) true ∈ h := by
  have hends := run.deliveryEnds hended ho
  simp only [← got_own_iff]
  generalize own a h = past at hends
  cases hends with
  | left _ _ hnot => simp [Got, takenIn, hnot]
  | claimed _ _ hopen => simp [Got, takenIn, hopen]
  | _ => simp [Got, takenIn]

/-! ## All deliveries -/

/-- What is kept is kept where there is nothing, and nothing else is kept there until it is removed. -/
theorem Run.removed_between_kept
    (run : w.Run (.asked b (.store (.insert q)) true ::
      (between ++ .asked a (.store (.insert p)) true :: older))) (hpeer : a.peer = b.peer)
    (hid : q.id = p.id) : ¬ NoneRemoved a.peer p.id between := by
  intro hnone
  obtain ⟨r, hr, -⟩ := record_kept run.tail.of_append.record_of_insert hnone
  have hfree := run.kept_iff.1 rfl
  rw [← hpeer, hid, hr] at hfree
  cases hfree

/-- A proposal is taken in once however often it is delivered, and only the delivery that has taken it in
has done anything about it. -/
structure TakesInOnce (w : Swarm) (h : List Event) (n : PeerId) (k : String) : Prop where
  /-- A proposal is kept exactly where nothing is kept under its id, and is the record then. -/
  decided : ∀ a p kept older, .asked a (.store (.insert p)) kept :: older <:+ h → a.peer = n →
    p.id = k → (kept = true ↔ w.record older n k = none) ∧
      (kept = true → w.record (.asked a (.store (.insert p)) kept :: older) n k = some p)
  /-- Between two proposals that are kept the record was removed. -/
  one : ∀ a b p q newer between older,
    h = newer ++ .asked b (.store (.insert q)) true ::
      (between ++ .asked a (.store (.insert p)) true :: older) →
    a.peer = n → b.peer = n → p.id = k → q.id = k → ¬ NoneRemoved n k between
  /-- A delivery of what may be kept has had the store decide by its end. -/
  asked : ∀ a sender p o, a.operation = .handle sender (.proposal p) → .ended a o ∈ h → a.peer = n →
    p.validateReceived = .ok () → p.proposer ≠ n → ∃ kept, .asked a (.store (.insert p)) kept ∈ h
  /-- A delivery keeps nothing but its own proposal, fit to be kept and not in the name of its node. -/
  foreign : ∀ a sender p q kept, a.operation = .handle sender (.proposal p) →
    .asked a (.store (.insert q)) kept ∈ h → a.peer = n →
      q = p ∧ p.validateReceived = .ok () ∧ p.proposer ≠ n
  /-- What stands in the name of its node was created there. -/
  created : ∀ r, w.record h n k = some r → r.proposer = n → ∃ a spec t kept, a.peer = n ∧
    a.operation = .create spec ∧ .asked a (.store (.insert (.new k n spec t))) kept ∈ h
  /-- The delivery that has taken a proposal in tells so next, and does not end before. -/
  told : ∀ a sender p newer older, a.operation = .handle sender (.proposal p) →
    h = newer ++ .asked a (.store (.insert p)) true :: older → a.peer = n → p.id = k →
      (own a newer = [] ∧ ∀ o, .ended a o ∉ newer) ∨
        ∃ later, own a newer = later ++ [⟨.emit (.proposalReceived k sender p), ()⟩]
  /-- Nobody else tells so, and it does so once. -/
  tellers : ∀ a sender p older, .asked a (.emit (.proposalReceived k sender p)) () :: older <:+ h →
    a.peer = n → a.operation = .handle sender (.proposal p) ∧ p.id = k ∧
      (∀ event, .asked a (.emit event) () ∉ older) ∧
        ∃ between before, older = between ++ .asked a (.store (.insert p)) true :: before ∧
          own a between = []
  /-- Nobody else sets a claim going, and it does so once, if at all. -/
  claimers : ∀ a delay older, .asked a (.spawn (.claim k delay)) () :: older <:+ h → a.peer = n →
    ∃ sender p, a.operation = .handle sender (.proposal p) ∧ p.id = k ∧ p.state = .proposed ∧
      .asked a (.store (.insert p)) true ∈ older ∧
        .asked a (.store (.canHandle p.requirements)) true ∈ older ∧
          ∀ job, .asked a (.spawn job) () ∉ older
  /-- By its end it has done so if the proposal was PROPOSED and there was room for it. -/
  claims : ∀ a sender p o, a.operation = .handle sender (.proposal p) → .ended a o ∈ h → a.peer = n →
    p.id = k → ((∃ delay, .asked a (.spawn (.claim k delay)) () ∈ h) ↔
      .asked a (.store (.insert p)) true ∈ h ∧ p.state = .proposed ∧
        .asked a (.store (.canHandle p.requirements)) true ∈ h)
  /-- A delivery leaves what is there as it is. -/
  kept : ∀ a sender p e answer older r, a.operation = .handle sender (.proposal p) →
    .asked a e answer :: older <:+ h → w.record older n k = some r →
      w.record (.asked a e answer :: older) n k = some r
  /-- A delivery whose proposal was not kept leaves every store as it was, and does nothing else. -/
  idle : ∀ a sender p e answer older, a.operation = .handle sender (.proposal p) →
    .asked a e answer :: older <:+ h → a.peer = n → p.id = k →
      .asked a (.store (.insert p)) true ∉ h →
        w.store (.asked a e answer :: older) = w.store older ∧ e.event? = none ∧ ∀ job, e ≠ .spawn job
  /-- It is refused for what it holds, or acknowledged. -/
  answered : ∀ a sender p o, a.operation = .handle sender (.proposal p) → .ended a o ∈ h → a.peer = n →
    p.id = k → (∃ e, p.validateReceived = .error e ∧ o = .error e) ∨
      (p.validateReceived = .ok () ∧ ∃ t, o = .ok (receipt p t))

/-- **A proposal is taken in once**, whoever delivers it, however often and with whatever contents. -/
theorem Run.takesInOnce (run : w.Run h) (n : PeerId) (k : String) : w.TakesInOnce h n k where
  decided := by
    rintro a p kept older hsuffix rfl rfl
    have hrun := run.of_suffix hsuffix
    refine ⟨hrun.kept_iff, ?_⟩
    rintro rfl
    exact hrun.record_of_insert
  one := by
    rintro a b p q newer between older rfl rfl hpeer rfl hid
    exact run.of_append.removed_between_kept hpeer.symm hid
  asked := by
    rintro a sender p o ho hended rfl hvalid hforeign
    exact run.decided_of_ended hended ho hvalid hforeign
  foreign := by
    rintro a sender p q kept ho hmem rfl
    obtain ⟨older, hsuffix⟩ := exists_suffix_of_mem hmem
    exact (run.of_suffix hsuffix).kept_by_delivery ho
  created := by
    intro r hr hown
    obtain ⟨a, spec, t, kept, hmem, hpeer, ho, -⟩ := run.own_created hr hown
    exact ⟨a, spec, t, kept, hpeer, ho, hmem⟩
  told := by
    rintro a sender p newer older ho rfl - rfl
    exact run.told_of_kept ho
  tellers := fun a sender p older hsuffix _ => (run.of_suffix hsuffix).kept_of_told
  claimers := fun a delay older hsuffix _ => (run.of_suffix hsuffix).kept_of_claim
  claims := by
    rintro a sender p o ho hended - rfl
    exact run.claim_of_ended hended ho
  kept := fun a sender p e answer older r ho hsuffix hr =>
    (run.of_suffix hsuffix).record_of_delivery ho hr
  idle := fun a sender p e answer older ho hsuffix _ _ hnot =>
    (run.of_suffix hsuffix).store_of_delivery ho fun hmem => hnot (hsuffix.subset hmem)
  answered := fun a sender p o ho hended _ _ => run.delivery_answered hended ho

/-- `a` hears of a task of `p` from `x`, and of another under the same id from `y`. -/
def deliveredTwice : List Turn :=
  .outsider "a" "x" (.proposal (.new "t" "p" (echo []) 0)) :: List.replicate 5 (.go 0 (calm "")) ++
    [.finish 0, .outsider "a" "y" (.proposal (.new "t" "q" (echo ["f"]) 5)), .go 7 (calm ""),
      .go 7 (calm ""), .finish 7]

/-- The first has been told of, and the second has found it there. -/
theorem taken_in_first : ∃ x y v p q e₁ e₂ e₃ e₄ e₅ older, (among ["a"]).played deliveredTwice =
      [.ended y (.ok v), .asked y (.store (.insert q)) false, e₁, e₂, .ended x (.ok v), e₃, e₄, e₅] ++
        .asked x (.store (.insert p)) true :: older ∧
    (∃ later, own x [.ended y (.ok v), .asked y (.store (.insert q)) false, e₁, e₂, .ended x (.ok v), e₃,
        e₄, e₅] = later ++ [⟨.emit (.proposalReceived "t" "x" p), ()⟩]) ∧
      (among ["a"]).record ([e₁, e₂, .ended x (.ok v), e₃, e₄, e₅] ++
        .asked x (.store (.insert p)) true :: older) "a" "t" ≠ none := by
  obtain ⟨x, y, v, p, q, e₁, e₂, e₃, e₄, e₅, older, hplayed, hx, hxpeer, hypeer, hp, hq⟩ :
      ∃ x y v p q e₁ e₂ e₃ e₄ e₅ older, (among ["a"]).played deliveredTwice =
        [.ended y (.ok v), .asked y (.store (.insert q)) false, e₁, e₂, .ended x (.ok v), e₃, e₄, e₅] ++
          .asked x (.store (.insert p)) true :: older ∧
        x.operation = .handle "x" (.proposal p) ∧ x.peer = "a" ∧ y.peer = "a" ∧ p.id = "t" ∧ q.id = "t" :=
    ⟨_, _, _, _, _, _, _, _, _, _, _, rfl, rfl, rfl, rfl, rfl, rfl⟩
  have honce := (run_played (w := among ["a"]) deliveredTwice).takesInOnce "a" "t"
  refine ⟨x, y, v, p, q, e₁, e₂, e₃, e₄, e₅, older, hplayed, ?_, fun hnone => ?_⟩
  · obtain ⟨-, hended⟩ | htold := honce.told x "x" p _ older hx hplayed hxpeer hp
    · exact absurd (by simp) (hended (.ok v))
    · exact htold
  · have hkept := (honce.decided y q false _ (hplayed ▸ List.suffix_cons _ _) hypeer hq).1.2 hnone
    cases hkept

end Swarm

end TaskSwarm
