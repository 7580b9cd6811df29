/-
Results in the midst of other requests.

A request reads a proposal first and moves it later, so a status that was checked
while a task was ACCEPTED may land after its result, and the other way round. It does
not matter. `Proposal.IsWith` is what every request keeps as long as the executor tells
of no failure and nobody calls the task off (`Run.isWith_step`): the proposal was taken
on, by the same executor, and is ACCEPTED, RUNNING or COMPLETED. A result may be taken
in the first two of these states, and it alone leads to the third, so the first result
that asks to be taken is (`Run.result_stands`): whatever comes before, in between and
after, the record ends up COMPLETED with that result and that executor.
-/
import TaskSwarm.Proofs.Swarm.Agreement
import TaskSwarm.Proofs.Swarm.LastMove
import TaskSwarm.Proofs.Swarm.Standing

set_option autoImplicit false

namespace TaskSwarm

/-- A proposal without files that `executor` has taken on, and has not been called off or failed. -/
structure Proposal.IsWith (executor : PeerId) (p : Proposal) : Prop where
  executor : p.acceptedBy = some executor
  state : p.state = .accepted ∨ p.state = .running ∨ p.state = .completed
  files : p.container.inputFiles = []

theorem Proposal.IsWith.settled {executor : PeerId} {p : Proposal} (h : p.IsWith executor) :
    p.IsSettled := by
  constructor <;> rcases h.state with hs | hs | hs <;> rw [hs] <;> decide

/-- The requests there may be while `executor` is at a task: what it tells itself, as long as that is no
failure, and whatever others want with the lock or with being accepted. -/
def Operation.isExchange (executor : PeerId) : Operation → Bool
  | .handle sender (.status u) => sender = executor && u.status ≠ .failed
  | .handle sender (.result _) => sender = executor
  | .handle _ (.lock _) | .handle _ (.unlock _) | .handle _ (.acceptance _) => true
  | _ => false

/-- Whether an event leaves what a node keeps under an id to such requests. -/
def Event.isExchange (n : PeerId) (k : String) (executor : PeerId) : Event → Bool
  | .asked a (.store c) _ => a.peer ≠ n || c.subject? ≠ some k || a.operation.isExchange executor
  | _ => true

/-- Whether an event is an attempt to complete the proposal that a node keeps under an id. -/
def Event.completes (n : PeerId) (k : String) : Event → Bool
  | .asked a (.store (.transition id .completed _)) _ => a.peer = n && id = k
  | _ => false

/-! ## What a result comes to -/

namespace Node

open TaskSwarm.Action

variable {s : Settings} {o : Operation} {past : List Entry} {executor sender : PeerId} {k : String}
  {x : TaskResult} {target : TaskState} {patch : Patch}

/-- How a request with a result ends: nothing was found, what was found has another executor, or the
proposal was asked to be COMPLETED. -/
inductive ResultEnds (sender : PeerId) (x : TaskResult) (past : List Entry) : Outcome Json → Prop
  | missing : Got past (.store (.get x.proposalId)) none →
      ResultEnds sender x past (.error (.proposalNotFound x.proposalId))
  | refused {found : Proposal} {e : SwarmError} : Looked past x.proposalId found →
      checkExecutor found sender = .error e → ResultEnds sender x past (.error e)
  | kept {e : SwarmError} :
      Got past (.store (.transition x.proposalId .completed (.ofResult x.result))) (.error e) →
      ResultEnds sender x past (.error e)
  | moved {q : Proposal} {v : Json} : Moved past x.proposalId .completed (.ofResult x.result) q →
      ResultEnds sender x past (.ok v)

/-- A request with a result asks for one move at most, and after a look-up alone. -/
theorem obeys_resultRequest (ho : o = .handle sender (.result x)) :
    (o.program s).Obeys
      (fun past e => (∃ id target patch, e = .store (.transition id target patch)) →
        ∀ entry ∈ past, ∃ id, entry.effect = .store (.get id)) (ResultEnds sender x) [] := by
  subst ho
  show Action.Obeys _ _ _ (Operation.action s (.handle sender (.result x)))
  rw [Operation.action, handle, handleResult, obeys_forExecutor]
  refine ⟨by simp, fun found => ⟨fun _ hcheck => .refused got_head hcheck, fun _ => ?_⟩, .missing got_head⟩
  simp only [obeys_bind, obeys_transition]
  refine ⟨by simp, ?_⟩
  rintro (e | q)
  · exact .kept got_head
  · simp only [then_ok, obeys_bind, obeys_emit, obeys_pure]
    exact ⟨by simp, fun _ => .moved got_head.cons⟩

/-- What is asked of a task that is underway neither fails it nor calls it off, and completes it by a
result alone. -/
theorem target_of_isExchange (hmoves : Moves s o past k target patch)
    (ho : o.isExchange executor = true) :
    target ≠ .failed ∧ target ≠ .cancelled ∧
      (target = .completed → ∃ y, o = .handle executor (.result y)) := by
  cases hmoves with
  | acceptance | withdrawal => simp
  | status heq _ _ hstatus =>
    rw [heq] at ho
    simp only [Operation.isExchange, Bool.and_eq_true, decide_eq_true_eq] at ho
    obtain hstatus | hstatus := hstatus
    · simp [hstatus]
    · exact absurd hstatus ho.2
  | @result sender y p heq =>
    rw [heq] at ho
    obtain rfl : sender = executor := by simpa [Operation.isExchange] using ho
    exact ⟨by decide, by decide, fun _ => ⟨y, heq⟩⟩
  | lock hclaiming | undo hclaiming | take hclaiming =>
    -- Such a move is made by who claims, and a request claims nothing.
    obtain ⟨id, hclaimed, -⟩ := hclaiming.looked
    unfold Operation.claimed? at hclaimed
    split at hclaimed <;> simp_all [Operation.isExchange]
  | cancel heq | cancellation heq | run heq | complete heq | fail heq =>
    rw [heq] at ho
    cases ho

end Node

namespace Swarm

open TaskSwarm.Node

variable {w : Swarm} {h newer older : List Event} {a x : Activity} {n executor : PeerId} {k : String}
  {p q r : Proposal} {event : Event}

/-! ## One event -/

/-- A proposal of its own without files is not put back. -/
theorem Run.not_withdraws_of_own (run : w.Run (event :: h)) (hp : w.record h n k = some p)
    (hpown : p.proposer = n) (hfiles : p.container.inputFiles = []) : ¬ event.Withdraws n k := by
  rintro ⟨a, sender, y, q, rfl, rfl, ho, -⟩
  have hmoves := run.permits
  rw [ho] at hmoves
  obtain ⟨found, hlooked, hid, -, -, ⟨hcase, -⟩ | ⟨-, -, hne⟩⟩ := moves_of_acceptance hmoves
  · cases hcase
  · -- What was looked up is the same proposal, and that has no files.
    have hkey := run.tail.id_of_looked hlooked
    rw [← hkey, hid] at hlooked
    obtain ⟨before, ⟨since, rfl⟩, hfound⟩ := run.tail.record_of_looked hlooked
    have hown := run.tail.own_of_looked hlooked hp hpown
    have hkin := run.tail.own_kin hfound hown hp hpown
    rw [← hkin.container] at hne
    exact hne hfiles

/-- A proposal that is with its executor stays so. -/
theorem Run.isWith_step (run : w.Run (event :: h)) (hp : w.record h n k = some p)
    (hpown : p.proposer = n) (hwith : p.IsWith executor)
    (hexchange : event.isExchange n k executor = true) :
    ∃ r, w.record (event :: h) n k = some r ∧ r.proposer = n ∧ r.IsWith executor := by
  obtain hsame | ⟨a, c, answer, timeout, rfl, hpeer, hafter⟩ := record_of_some event hp
  · exact ⟨p, hsame, hpown, hwith⟩
  have ho : c.subject? = some k → a.operation.isExchange executor = true := by
    intro hsubject
    simpa [Event.isExchange, hpeer, hsubject] using hexchange
  obtain ⟨rfl, -⟩ | ⟨r, hchanges, hr⟩ := hafter
  · -- Only who created a proposal removes it.
    obtain ⟨spec, q, kept, hcreate, -, -⟩ := run.permits
    have ho := ho rfl
    rw [hcreate] at ho
    cases ho
  have hkin := hchanges.kin
  have hrown : r.proposer = n := hkin.proposer.trans hpown
  obtain ⟨hsettled, hexecutor⟩ := (run.settled_step hp hpown hwith.settled hr).resolve_right
    (run.not_withdraws_of_own hp hpown hwith.files)
  refine ⟨r, hr, hrown, hexecutor.trans hwith.executor, ?_, ?_⟩
  · have hnot : r.state ≠ .failed ∧ r.state ≠ .cancelled := by
      cases hchanges with
      | moved hmoved =>
        rw [Store.state_of_moved hmoved]
        have htarget := target_of_isExchange run.permits (ho rfl)
        exact ⟨htarget.1, htarget.2.1⟩
      | progressed => rcases hwith.state with hs | hs | hs <;> simp [hs]
      | locked _ hgrant =>
        obtain ⟨-, rfl⟩ := Proposal.grant_eq_ok_iff.1 hgrant
        simp
      | unlocked _ hrelease =>
        rw [Store.state_of_moved (Proposal.release_eq_ok_iff.1 hrelease).2]
        decide
    obtain ⟨hproposed, hlocked⟩ := hsettled
    cases hs : r.state <;> simp_all
  · rw [hkin.container]
    exact hwith.files

/-- What becomes COMPLETED does so by a move that was asked for. -/
theorem completes_of_completed (hp : w.record h n k = some p) (hstate : p.state ≠ .completed)
    (hr : w.record (event :: h) n k = some r) (hdone : r.state = .completed) :
    event.completes n k = true := by
  obtain rfl | ⟨a, c, answer, timeout, rfl, rfl, hchanges⟩ := eq_or_changes hp hr
  · exact absurd hdone hstate
  cases hchanges with
  | progressed => exact absurd hdone hstate
  | locked _ hgrant =>
    obtain ⟨-, rfl⟩ := Proposal.grant_eq_ok_iff.1 hgrant
    cases hdone
  | unlocked _ hrelease =>
    rw [Store.state_of_moved (Proposal.release_eq_ok_iff.1 hrelease).2] at hdone
    cases hdone
  | moved hmoved =>
    rw [Store.state_of_moved hmoved] at hdone
    subst hdone
    simp [Event.completes]

/-! ## From one point on -/

theorem Run.isWith_since (run : w.Run (newer ++ older)) (hp : w.record older n k = some p)
    (hpown : p.proposer = n) (hwith : p.IsWith executor)
    (hexchange : ∀ event ∈ newer, event.isExchange n k executor = true) :
    ∃ r, w.record (newer ++ older) n k = some r ∧ r.proposer = n ∧ r.IsWith executor := by
  induction newer with
  | nil => exact ⟨p, hp, hpown, hwith⟩
  | cons event newer ih =>
    obtain ⟨q, hq, hqown, hqwith⟩ :=
      ih run.tail fun event hmem => hexchange event (List.mem_cons_of_mem _ hmem)
    exact run.isWith_step hq hqown hqwith (hexchange event List.mem_cons_self)

/-- Nothing is COMPLETED that nobody has asked to be. -/
theorem Run.not_completed_since (run : w.Run (newer ++ older)) (hp : w.record older n k = some p)
    (hpown : p.proposer = n) (hstate : p.state ≠ .completed)
    (hnone : ∀ event ∈ newer, event.completes n k = false)
    (hr : w.record (newer ++ older) n k = some r) (hrown : r.proposer = n) : r.state ≠ .completed := by
  induction newer generalizing r with
  | nil =>
    rw [List.nil_append, hp] at hr
    cases hr
    exact hstate
  | cons event newer ih =>
    obtain ⟨q, hq, hqown⟩ := run.own_since hp hpown hr hrown
    have hqstate := ih run.tail (fun e he => hnone e (List.mem_cons_of_mem _ he)) hq hqown
    intro hdone
    have hcompletes := completes_of_completed hq hqstate hr hdone
    rw [hnone event List.mem_cons_self] at hcompletes
    cases hcompletes

/-! ## Results -/

/-- Who begins when a proposal is with its executor asks for everything while it is. -/
theorem Run.isWith_of_got (run : w.Run (newer ++ older)) (hp : w.record older n k = some p)
    (hpown : p.proposer = n) (hwith : p.IsWith executor)
    (hexchange : ∀ event ∈ newer, event.isExchange n k executor = true) (hbegan : .began x ∈ newer)
    {e : Effect} {answer : e.Answer} (hgot : Got (own x (newer ++ older)) e answer) :
    ∃ later first q r, newer = later ++ .asked x e answer :: first ∧
      w.record (first ++ older) n k = some q ∧ q.proposer = n ∧ q.IsWith executor ∧
        w.record (.asked x e answer :: (first ++ older)) n k = some r ∧ r.IsWith executor := by
  obtain hmem | hmem := List.mem_append.1 (got_own_iff.1 hgot)
  · obtain ⟨later, first, rfl⟩ := List.append_of_mem hmem
    have hfirst : ∀ event ∈ first, event.isExchange n k executor = true := fun event hmem =>
      hexchange event (List.mem_append_right _ (List.mem_cons_of_mem _ hmem))
    have hrun := run
    rw [List.append_assoc, List.cons_append] at hrun
    obtain ⟨q, hq, hqown, hqwith⟩ := hrun.of_append.tail.isWith_since hp hpown hwith hfirst
    obtain ⟨r, hr, -, hrwith⟩ := hrun.of_append.isWith_step hq hqown hqwith (hexchange _ hmem)
    exact ⟨later, first, q, r, rfl, hq, hqown, hqwith, hr, hrwith⟩
  · exact absurd (run.of_append.began_of_mem hmem) (run.not_began_before hbegan)

/-- The first result that asks to be taken is taken. -/
theorem Run.result_taken {outcome : Outcome Json} {y : TaskResult}
    (run : w.Run (.ended x outcome :: (newer ++ older)))
    (hp : w.record older x.peer y.proposalId = some p) (hpown : p.proposer = x.peer)
    (hstate : p.state ≠ .completed) (hwith : p.IsWith executor)
    (hexchange : ∀ event ∈ newer, event.isExchange x.peer y.proposalId executor = true)
    (ho : x.operation = .handle executor (.result y)) (hbegan : .began x ∈ newer)
    (hfirst : ∀ event ∈ newer, event.completes x.peer y.proposalId = true → event.activity = x) :
    ∃ v q later first, outcome = .ok v ∧ newer = later ++
      .asked x (.store (.transition y.proposalId .completed (.ofResult y.result))) (.ok q) :: first := by
  have hends : ResultEnds executor y (own x (newer ++ older)) outcome :=
    run.endsAs (obeys_resultRequest ho)
  replace run := run.tail
  cases hends with
  | missing hgot =>
    obtain ⟨later, first, q, r, rfl, -, -, -, hr, -⟩ :=
      run.isWith_of_got hp hpown hwith hexchange hbegan hgot
    rw [List.append_assoc, List.cons_append] at run
    cases run.of_append.record_of_get.symm.trans hr
  | refused hlooked hcheck =>
    obtain ⟨later, first, q, r, rfl, -, -, -, hr, hrwith⟩ :=
      run.isWith_of_got hp hpown hwith hexchange hbegan hlooked
    rw [List.append_assoc, List.cons_append] at run
    cases run.of_append.record_of_get.symm.trans hr
    have hok := checkExecutor_eq_ok_iff.2 (Or.inr hrwith.executor)
    cases hcheck.symm.trans hok
  | kept hgot =>
    exfalso
    obtain ⟨later, first, q, r, rfl, hq, hqown, hqwith, -, -⟩ :=
      run.isWith_of_got hp hpown hwith hexchange hbegan hgot
    rw [List.append_assoc, List.cons_append] at run
    replace run := run.of_append
    -- Nothing has completed the proposal, because this one asks to only once.
    have hnone : ∀ event ∈ first, event.completes x.peer y.proposalId = false := by
      intro event hmem
      refine Bool.eq_false_iff.2 fun hcompletes => ?_
      have hx := hfirst event (List.mem_append_right _ (List.mem_cons_of_mem _ hmem)) hcompletes
      unfold Event.completes at hcompletes
      split at hcompletes
      · next b id patch answer =>
        obtain rfl : b = x := hx
        have hlooks := run.asksAs (obeys_resultRequest ho) ⟨_, _, _, rfl⟩
        obtain ⟨id', hget⟩ := hlooks _ (got_own_iff.2 (List.mem_append_left _ hmem))
        cases hget
      · cases hcompletes
    have hqstate := run.tail.not_completed_since hp hpown hstate hnone hq hqown
    have hcan : q.state.canBecome .completed = true := by
      rcases hqwith.state with hs | hs | hs
      · rw [hs]; rfl
      · rw [hs]; rfl
      · exact absurd hs hqstate
    obtain ⟨r', hmoved⟩ : ∃ r', Store.moved q .completed (.ofResult y.result) = .ok r' :=
      (Store.exists_moved_iff (by decide)).2 hcan
    have hanswer := run.possible.trans (Store.reply_transition hq hmoved)
    cases hanswer
  | moved hmoved =>
    obtain ⟨later, first, -, -, hbefore, -⟩ :=
      run.isWith_of_got hp hpown hwith hexchange hbegan hmoved
    exact ⟨_, _, later, first, rfl, hbefore⟩

/-- A request with a result changes a record only by completing it. -/
theorem Run.completes_of_result {e : Effect} {answer : e.Answer} {sender : PeerId} {y : TaskResult}
    (run : w.Run (.asked a e answer :: h)) (ho : a.operation = .handle sender (.result y))
    (hp : w.record h n k = some p) (hne : w.record (.asked a e answer :: h) n k ≠ some p) :
    Event.completes n k (.asked a e answer) = true ∧ p.state ≠ .completed := by
  obtain hsame | ⟨b, c, answer, timeout, hevent, hpeer, hafter⟩ := record_of_some (.asked a e answer) hp
  · exact absurd hsame hne
  cases hevent
  have hpermits := run.permits
  rw [ho] at hpermits
  obtain ⟨rfl, -⟩ | ⟨q, hchanges, -⟩ := hafter
  · obtain ⟨spec, q, kept, hcreate, -, -⟩ := hpermits
    cases hcreate
  cases hchanges with
  | moved hmoved =>
    obtain ⟨-, rfl, -, -⟩ := moves_of_result hpermits
    have hcan := Store.canBecome_of_moved hmoved
    refine ⟨by simp [Event.completes, hpeer], fun hdone => ?_⟩
    rw [hdone, TaskState.canBecome_of_terminal rfl] at hcan
    cases hcan
  | progressed =>
    obtain ⟨sender, u, p, hstatus, -⟩ := hpermits
    cases hstatus
  | locked =>
    obtain ⟨sender, hlock⟩ := hpermits
    cases hlock
  | unlocked =>
    obtain ⟨sender, hunlock⟩ := hpermits
    cases hunlock

/-- Once such a request has ended, the proposal is COMPLETED with its result. -/
theorem Run.completed_with {after before : List Event} {outcome : Outcome Json} {y : TaskResult}
    (run : w.Run (after ++ .ended x outcome :: (before ++ older)))
    (hp : w.record older x.peer y.proposalId = some p) (hpown : p.proposer = x.peer)
    (hstate : p.state ≠ .completed) (hwith : p.IsWith executor)
    (hexchange : ∀ event ∈ after ++ before, event.isExchange x.peer y.proposalId executor = true)
    (ho : x.operation = .handle executor (.result y)) (hbegan : .began x ∈ before)
    (hfirst : ∀ event ∈ before, event.completes x.peer y.proposalId = true → event.activity = x) :
    (∃ v, outcome = .ok v) ∧
      ∃ r, w.record (after ++ .ended x outcome :: (before ++ older)) x.peer y.proposalId = some r ∧
        r.state = .completed ∧ r.result = some y.result ∧ r.acceptedBy = some executor := by
  have hall : ∀ event ∈ after ++ .ended x outcome :: before,
      event.isExchange x.peer y.proposalId executor = true := by
    intro event hmem
    obtain hmem | hmem := List.mem_append.1 hmem
    · exact hexchange event (List.mem_append_left _ hmem)
    obtain rfl | hmem := List.mem_cons.1 hmem
    · rfl
    · exact hexchange event (List.mem_append_right _ hmem)
  obtain ⟨v, q, later, first, rfl, rfl⟩ := run.of_append.result_taken hp hpown hstate hwith
    (fun event hmem => hexchange event (List.mem_append_right _ hmem)) ho hbegan hfirst
  refine ⟨⟨v, rfl⟩, ?_⟩
  have hwhole := run
  rw [← List.cons_append, ← List.append_assoc] at hwhole ⊢
  obtain ⟨r, hr, hrown, hrwith⟩ := hwhole.isWith_since hp hpown hwith hall
  refine ⟨r, hr, ?_⟩
  -- It was COMPLETED by the move, and nothing changes that.
  have hsplit : (after ++ .ended x (.ok v) :: (later ++
      .asked x (.store (.transition y.proposalId .completed (.ofResult y.result))) (.ok q) :: first)) ++
        older = (after ++ .ended x (.ok v) :: later) ++
      .asked x (.store (.transition y.proposalId .completed (.ofResult y.result))) (.ok q) ::
        (first ++ older) := by simp
  rw [hsplit] at hwhole hr
  obtain ⟨p', hp', hmoved, hq⟩ := hwhole.of_append.record_of_transition
  have hqown : q.proposer = x.peer :=
    Classical.byContradiction fun hforeign => hwhole.foreign_stays hq hforeign hr hrown
  obtain ⟨hdone, hresult⟩ := hwhole.completed_since hq hqown (Store.state_of_moved hmoved) hr hrown
  refine ⟨hdone, ?_, hrwith.executor⟩
  rw [hresult, Store.result_of_moved hmoved]
  rfl

/-- **A result stands, whatever comes in between.** Take a proposal of its own, without files, that a
node has ACCEPTED an executor for, and from there on let there be any requests about it at all in which
the executor tells of no failure. A request with a result of the executor, the first one that asks to be
taken, is then answered with success, and once it is, the proposal is COMPLETED with that result and
that executor. No other request with a result changes anything, before or after. -/
theorem Run.result_stands {after before : List Event} {outcome : Outcome Json} {y : TaskResult}
    (run : w.Run (after ++ .ended x outcome :: (before ++ older)))
    (hp : w.record older x.peer y.proposalId = some p) (hpown : p.proposer = x.peer)
    (hfiles : p.container.inputFiles = []) (hstate : p.state = .accepted)
    (hexecutor : p.acceptedBy = some executor)
    (hexchange : ∀ event ∈ after ++ before, event.isExchange x.peer y.proposalId executor = true)
    (ho : x.operation = .handle executor (.result y)) (hbegan : .began x ∈ before)
    (hfirst : ∀ event ∈ before, event.completes x.peer y.proposalId = true → event.activity = x) :
    (∃ v, outcome = .ok v) ∧
      (∃ r, w.record (after ++ .ended x outcome :: (before ++ older)) x.peer y.proposalId = some r ∧
        r.state = .completed ∧ r.result = some y.result ∧ r.acceptedBy = some executor) ∧
      ∀ b e answer between sender z,
        .asked b e answer :: (between ++ older) <:+ after ++ .ended x outcome :: (before ++ older) →
        b ≠ x → b.operation = .handle sender (.result z) →
          w.record (.asked b e answer :: (between ++ older)) x.peer y.proposalId =
            w.record (between ++ older) x.peer y.proposalId := by
  have hwith : p.IsWith executor := ⟨hexecutor, Or.inl hstate, hfiles⟩
  have hundone : p.state ≠ .completed := by simp [hstate]
  obtain ⟨hsuccess, hdone⟩ :=
    run.completed_with hp hpown hundone hwith hexchange ho hbegan hfirst
  refine ⟨hsuccess, hdone, ?_⟩
  intro b e answer between sender z hsuffix hb hbo
  have hrun := run.of_suffix hsuffix
  obtain hearlier | hlater := List.suffix_or_suffix_of_suffix hsuffix (List.suffix_append after _)
  · -- Before the end of the request, nobody else asks to complete the proposal.
    have hcancel : .asked b e answer :: between <:+ .ended x outcome :: before := by
      obtain ⟨rest, heq⟩ := hearlier
      have heq : rest ++ .asked b e answer :: between ++ older =
          .ended x outcome :: before ++ older := by simpa using heq
      exact ⟨rest, List.append_cancel_right heq⟩
    have hmem : .asked b e answer ∈ before := by
      simpa using hcancel.subset List.mem_cons_self
    obtain ⟨q, hq, -, -⟩ := hrun.tail.isWith_since hp hpown hwith fun event hevent => by
      have := (hcancel.subset (List.mem_cons_of_mem _ hevent))
      obtain rfl | hevent := List.mem_cons.1 this
      · rfl
      · exact hexchange event (List.mem_append_right _ hevent)
    rw [hq]
    refine Classical.byContradiction fun hne => hb ?_
    exact hfirst _ hmem (hrun.completes_of_result hbo hq hne).1
  · -- After it, there is nothing to complete.
    obtain heq | hlater := List.suffix_cons_iff.1 hlater
    · cases heq
    obtain ⟨since, heq⟩ := hlater
    have hpast := hrun.tail
    rw [← heq] at hpast
    have hsince : since <:+ after := by
      obtain ⟨rest, hrest⟩ := hsuffix
      rw [← heq] at hrest
      have hrest : rest ++ [.asked b e answer] ++ since ++ .ended x outcome :: (before ++ older) =
          after ++ .ended x outcome :: (before ++ older) := by simpa using hrest
      exact ⟨rest ++ [.asked b e answer], List.append_cancel_right hrest⟩
    obtain ⟨-, q, hq, hqdone, -⟩ := hpast.completed_with hp hpown hundone hwith
      (fun event hevent => hexchange event <| by
        obtain hevent | hevent := List.mem_append.1 hevent
        · exact List.mem_append_left _ (hsince.subset hevent)
        · exact List.mem_append_right _ hevent) ho hbegan hfirst
    rw [heq] at hq
    rw [hq]
    exact Classical.byContradiction fun hne => (hrun.completes_of_result hbo hq hne).2 hqdone

/-- `a` has been accepted, and says that it runs. Before that is noted, its result is taken, and the lock
is asked for by `b`; the note then comes too late. Another result of `a` comes later still. -/
def overtakenStatus : List Turn :=
  ordinaryResult.take 10 ++
    [.outsider "p" "a" (.status ⟨"t", .running, none, 0⟩), .go 10 (calm ""),
      .outsider "p" "a" (.result ⟨"t", .str "done", 0⟩), .go 12 (calm ""), .go 12 (calm ""),
      .outsider "p" "b" (.lock ⟨"t", "M", "b"⟩), .go 15 (calm ""), .go 15 (calm ""),
      .go 10 (calm ""), .finish 10, .go 12 (calm ""), .finish 12,
      .outsider "p" "a" (.result ⟨"t", .str "again", 0⟩), .go 22 (calm ""), .go 22 (calm ""),
      .finish 22]

theorem overtaken_status : ∃ after before older x outcome p r,
    (among ["p"]).played overtakenStatus = after ++ .ended x outcome :: (before ++ older) ∧
      (among ["p"]).record older x.peer "t" = some p ∧ p.proposer = x.peer ∧
        p.container.inputFiles = [] ∧ p.state = .accepted ∧ p.acceptedBy = some "a" ∧
          (∀ event ∈ after ++ before, event.isExchange x.peer "t" "a" = true) ∧
            x.operation = .handle "a" (.result ⟨"t", .str "done", 0⟩) ∧ .began x ∈ before ∧
              (∀ event ∈ before, event.completes x.peer "t" = true → event.activity = x) ∧
                (among ["p"]).record (after ++ .ended x outcome :: (before ++ older)) x.peer "t" =
                  some r ∧
                  r.state = .completed ∧ r.result = some (.str "done") ∧ r.acceptedBy = some "a" := by
  obtain ⟨after, before, older, x, outcome, p, hevents, hp, hown, hfiles, hstate, hexecutor, hexchange,
      ho, hbegan, hfirst⟩ : ∃ after before older x outcome p,
        (among ["p"]).played overtakenStatus = after ++ .ended x outcome :: (before ++ older) ∧
          (among ["p"]).record older x.peer "t" = some p ∧ p.proposer = x.peer ∧
            p.container.inputFiles = [] ∧ p.state = .accepted ∧ p.acceptedBy = some "a" ∧
              (after ++ before).all (Event.isExchange x.peer "t" "a") = true ∧
                x.operation = .handle "a" (.result ⟨"t", .str "done", 0⟩) ∧ .began x ∈ before ∧
                  before.all (fun event => !event.completes x.peer "t" ||
                    event.activity.number = x.number) = true :=
    ⟨[_, _, _, _], [_, _, _, _, _, _, _, _, _, _, _], _, _, _, _, rfl, rfl, rfl, rfl, rfl, rfl, rfl, rfl,
      by simp, rfl⟩
  have run := run_played (w := among ["p"]) overtakenStatus
  rw [hevents] at run
  have hfirst : ∀ event ∈ before, event.completes x.peer "t" = true → event.activity = x := by
    intro event hmem hcompletes
    have hnumber := List.all_eq_true.1 hfirst event hmem
    simp only [hcompletes, Bool.not_true, Bool.false_or, decide_eq_true_eq] at hnumber
    have hpast := run.of_append.tail
    exact hpast.number_inj (hpast.began_of_mem (List.mem_append_left _ hmem))
      (List.mem_append_left _ hbegan) hnumber
  obtain ⟨-, ⟨r, hr, hdone, hresult, hby⟩, -⟩ := run.result_stands hp hown hfiles hstate hexecutor
    (List.all_eq_true.1 hexchange) ho hbegan hfirst
  exact ⟨after, before, older, x, outcome, p, r, hevents, hp, hown, hfiles, hstate, hexecutor,
    List.all_eq_true.1 hexchange, ho, hbegan, hfirst, hr, hdone, hresult, hby⟩

end Swarm

end TaskSwarm
