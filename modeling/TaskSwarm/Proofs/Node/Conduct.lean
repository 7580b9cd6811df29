/-
The conduct of a program.

What a program does is judged by what it asks for. `Program.Obeys asks ends`
says that every effect it asks for is one that `asks` allows, given all it has
asked and been answered before, and that it ends only with what `ends` allows.
Nothing is assumed of the answers, so a program that obeys does so in any
surroundings: whoever runs it, and whatever happens between two of its effects.

The lemmas below take an action apart at its binds. There is one for each way of
building an action and one for each single effect, so that the proof about an
operation reads its definition from the top to the bottom.
-/
import TaskSwarm.Node.Service

set_option autoImplicit false

namespace TaskSwarm

/-- An effect that was asked for, and its answer. -/
structure Entry where
  effect : Effect
  answer : effect.Answer

namespace Program

variable {α β : Type} {asks : List Entry → Effect → Prop}

/-- Every effect is one that `asks` allows after those before it, the latest first, and every result
one that `ends` allows. -/
def Obeys (asks : List Entry → Effect → Prop) (ends : List Entry → α → Prop) :
    List Entry → Program α → Prop
  | past, .done a => ends past a
  | past, .ask e next => asks past e ∧ ∀ answer, (next answer).Obeys asks ends (⟨e, answer⟩ :: past)

theorem obeys_bind {p : Program α} {f : α → Program β} {ends : List Entry → β → Prop}
    {past : List Entry} :
    (p.bind f).Obeys asks ends past ↔ p.Obeys asks (fun past a => (f a).Obeys asks ends past) past := by
  induction p generalizing past with
  | done a => rfl
  | ask e next ih =>
    simp only [bind, Obeys]
    exact and_congr_right fun _ => forall_congr' fun answer => ih answer

theorem Obeys.mono {p : Program α} {ends ends' : List Entry → α → Prop} {past : List Entry}
    (h : p.Obeys asks ends past) (imp : ∀ past a, ends past a → ends' past a) :
    p.Obeys asks ends' past := by
  induction p generalizing past with
  | done a => exact imp _ _ h
  | ask e next ih => exact ⟨h.1, fun answer => ih answer (h.2 answer)⟩

/-- Nothing that was asked is forgotten. -/
theorem Obeys.keeping {p : Program α} {ends : List Entry → α → Prop} {past : List Entry}
    (h : p.Obeys asks ends past) :
    p.Obeys asks (fun later a => past ⊆ later ∧ ends later a) past := by
  induction p generalizing past with
  | done a => exact ⟨fun _ hx => hx, h⟩
  | ask e next ih =>
    refine ⟨h.1, fun answer => (ih answer (h.2 answer)).mono ?_⟩
    rintro later a ⟨hsub, hends⟩
    exact ⟨fun x hx => hsub (List.mem_cons_of_mem _ hx), hends⟩

/-- What may be asked may be asked where more is allowed. -/
theorem Obeys.imp {p : Program α} {asks' : List Entry → Effect → Prop}
    {ends : List Entry → α → Prop} {past : List Entry} (h : p.Obeys asks ends past)
    (imp : ∀ past e, asks past e → asks' past e) : p.Obeys asks' ends past := by
  induction p generalizing past with
  | done a => exact h
  | ask e next ih => exact ⟨imp _ _ h.1, fun answer => ih answer (h.2 answer)⟩

/-- Who keeps to one rule and to another keeps to both. -/
theorem Obeys.and {p : Program α} {asks' : List Entry → Effect → Prop} {ends ends' : List Entry → α → Prop}
    {past : List Entry} (h : p.Obeys asks ends past) (h' : p.Obeys asks' ends' past) :
    p.Obeys (fun past e => asks past e ∧ asks' past e) (fun past a => ends past a ∧ ends' past a) past := by
  induction p generalizing past with
  | done a => exact ⟨h, h'⟩
  | ask e next ih => exact ⟨⟨h.1, h'.1⟩, fun answer => ih answer (h.2 answer) (h'.2 answer)⟩

/-- Whatever is asked is of the kind that may be asked. -/
theorem Obeys.adding {P : Effect → Prop} {p : Program α} {ends : List Entry → α → Prop}
    {past : List Entry} (h : p.Obeys (fun _ e => P e) ends past) :
    p.Obeys (fun _ e => P e)
      (fun later a => (∀ x ∈ later, x ∈ past ∨ P x.effect) ∧ ends later a) past := by
  induction p generalizing past with
  | done a => exact ⟨fun x hx => Or.inl hx, h⟩
  | ask e next ih =>
    refine ⟨h.1, fun answer => (ih answer (h.2 answer)).mono ?_⟩
    rintro later a ⟨hnew, hends⟩
    refine ⟨fun x hx => ?_, hends⟩
    obtain hx | hx := hnew x hx
    · obtain rfl | hx := List.mem_cons.1 hx
      · exact Or.inr h.1
      · exact Or.inl hx
    · exact Or.inr hx

end Program

namespace Action

variable {α β : Type} {asks : List Entry → Effect → Prop} {past : List Entry}

/-- An action obeys if its program does. -/
def Obeys (asks : List Entry → Effect → Prop) (ends : List Entry → Outcome α → Prop)
    (past : List Entry) (a : Action α) : Prop :=
  Program.Obeys asks ends past a.run

/-! ## Ways of building an action -/

/-- What has to hold after a first action for a second one, which only runs if the first one succeeds. -/
def Then (asks : List Entry → Effect → Prop) (f : α → Action β) (ends : List Entry → Outcome β → Prop)
    (past : List Entry) : Outcome α → Prop
  | .ok a => (f a).Obeys asks ends past
  | .error e => ends past (.error e)

@[simp] theorem then_ok {f : α → Action β} {ends : List Entry → Outcome β → Prop} {a : α} :
    Then asks f ends past (.ok a) = (f a).Obeys asks ends past := rfl

@[simp] theorem then_error {f : α → Action β} {ends : List Entry → Outcome β → Prop} {e : SwarmError} :
    Then asks f ends past (.error e) = ends past (.error e) := rfl

@[simp] theorem obeys_bind {a : Action α} {f : α → Action β} {ends : List Entry → Outcome β → Prop} :
    (a >>= f).Obeys asks ends past ↔ a.Obeys asks (Then asks f ends) past := by
  show Program.Obeys asks ends past (Program.bind a.run _) ↔ Program.Obeys asks _ past a.run
  rw [Program.obeys_bind]
  have h : ∀ past (o : Outcome α), Program.Obeys asks ends past (ExceptT.bindCont f o) ↔
      Then asks f ends past o := by
    rintro past (e | a) <;> exact Iff.rfl
  simp only [h]

@[simp] theorem obeys_pure {a : α} {ends : List Entry → Outcome α → Prop} :
    (pure a : Action α).Obeys asks ends past ↔ ends past (.ok a) := Iff.rfl

@[simp] theorem obeys_throw {e : SwarmError} {ends : List Entry → Outcome α → Prop} :
    (throw e : Action α).Obeys asks ends past ↔ ends past (.error e) := Iff.rfl

@[simp] theorem obeys_map {a : Action α} {f : α → β} {ends : List Entry → Outcome β → Prop} :
    (f <$> a).Obeys asks ends past ↔ a.Obeys asks (fun past o => ends past (o.map f)) past := by
  rw [← bind_pure_comp, obeys_bind]
  have h : Then asks (fun x => pure (f x)) ends = fun past o => ends past (o.map f) := by
    funext past o
    cases o <;> rfl
  rw [h]

@[simp] theorem obeys_ofOutcome {o : Outcome α} {ends : List Entry → Outcome α → Prop} :
    (ofOutcome o).Obeys asks ends past ↔ ends past o := Iff.rfl

@[simp] theorem obeys_outcome {a : Action α} {ends : List Entry → Outcome (Outcome α) → Prop} :
    (outcome a).Obeys asks ends past ↔ a.Obeys asks (fun past o => ends past (.ok o)) past := by
  show Program.Obeys asks ends past (Program.bind a.run _) ↔ _
  rw [Program.obeys_bind]
  rfl

/-- A program that cannot fail. -/
@[simp] theorem obeys_lift {p : Program α} {ends : List Entry → Outcome α → Prop} :
    Obeys asks ends past (ExceptT.lift p) ↔ p.Obeys asks (fun past a => ends past (.ok a)) past :=
  Program.obeys_bind

@[simp] theorem obeys_ite {c : Prop} [Decidable c] {a b : Action α}
    {ends : List Entry → Outcome α → Prop} :
    (if c then a else b).Obeys asks ends past ↔
      (c → a.Obeys asks ends past) ∧ (¬ c → b.Obeys asks ends past) := by
  by_cases h : c <;> simp [h]

@[simp] theorem ofIo_ok {a : α} : Action.ofIo (.ok a) = pure a := rfl

theorem Obeys.mono {a : Action α} {ends ends' : List Entry → Outcome α → Prop}
    (h : a.Obeys asks ends past) (imp : ∀ past o, ends past o → ends' past o) :
    a.Obeys asks ends' past := Program.Obeys.mono h imp

/-- Nothing that was asked is forgotten. -/
theorem Obeys.keeping {a : Action α} {ends : List Entry → Outcome α → Prop}
    (h : a.Obeys asks ends past) :
    a.Obeys asks (fun later o => past ⊆ later ∧ ends later o) past := Program.Obeys.keeping h

theorem Obeys.imp {a : Action α} {asks' : List Entry → Effect → Prop}
    {ends : List Entry → Outcome α → Prop} (h : a.Obeys asks ends past)
    (imp : ∀ past e, asks past e → asks' past e) : a.Obeys asks' ends past := Program.Obeys.imp h imp

/-- Who keeps to one rule and to another keeps to both. -/
theorem Obeys.and {a : Action α} {asks' : List Entry → Effect → Prop}
    {ends ends' : List Entry → Outcome α → Prop} (h : a.Obeys asks ends past)
    (h' : a.Obeys asks' ends' past) :
    a.Obeys (fun past e => asks past e ∧ asks' past e) (fun past o => ends past o ∧ ends' past o) past :=
  Program.Obeys.and h h'

/-- Whatever is asked is of the kind that may be asked. -/
theorem Obeys.adding {P : Effect → Prop} {a : Action α} {ends : List Entry → Outcome α → Prop}
    (h : a.Obeys (fun _ e => P e) ends past) :
    a.Obeys (fun _ e => P e)
      (fun later o => (∀ x ∈ later, x ∈ past ∨ P x.effect) ∧ ends later o) past :=
  Program.Obeys.adding h

end Action

/-! ## Single effects

`Action.perform e` has the type `e.Answer`, which is only seen through once `e` is known; so there is
one equivalence for each effect, and all of them hold by definition. -/

namespace Action

variable {asks : List Entry → Effect → Prop} {past : List Entry}

@[simp] theorem obeys_freshId {ends : List Entry → Outcome String → Prop} :
    Obeys asks ends past (perform .freshId) ↔
      asks past .freshId ∧ ∀ id, ends (⟨.freshId, id⟩ :: past) (.ok id) := Iff.rfl

@[simp] theorem obeys_freshToken {ends : List Entry → Outcome String → Prop} :
    Obeys asks ends past (perform .freshToken) ↔
      asks past .freshToken ∧ ∀ token, ends (⟨.freshToken, token⟩ :: past) (.ok token) := Iff.rfl

@[simp] theorem obeys_random {bound : Nat} {ends : List Entry → Outcome Nat → Prop} :
    Obeys asks ends past (perform (.random bound)) ↔
      asks past (.random bound) ∧ ∀ n, ends (⟨.random bound, n⟩ :: past) (.ok n) := Iff.rfl

@[simp] theorem obeys_spawn {job : Job} {ends : List Entry → Outcome Unit → Prop} :
    Obeys asks ends past (perform (.spawn job)) ↔
      asks past (.spawn job) ∧ ∀ u, ends (⟨.spawn job, u⟩ :: past) (.ok u) := Iff.rfl

@[simp] theorem obeys_execute {p : Proposal} {ends : List Entry → Outcome (Outcome Json) → Prop} :
    Obeys asks ends past (perform (.execute p)) ↔
      asks past (.execute p) ∧ ∀ r, ends (⟨.execute p, r⟩ :: past) (.ok r) := Iff.rfl

@[simp] theorem obeys_knownPeers {ends : List Entry → Outcome (List PeerId) → Prop} :
    Obeys asks ends past (perform .knownPeers) ↔
      asks past .knownPeers ∧ ∀ peers, ends (⟨.knownPeers, peers⟩ :: past) (.ok peers) := Iff.rfl

@[simp] theorem obeys_callAll {calls : List Call}
    {ends : List Entry → Outcome (List (Except CallFault ByteArray)) → Prop} :
    Obeys asks ends past (perform (.callAll calls)) ↔
      asks past (.callAll calls) ∧ ∀ rs, ends (⟨.callAll calls, rs⟩ :: past) (.ok rs) := Iff.rfl

@[simp] theorem obeys_transfer {call : Call} {ends : List Entry → Outcome (Except CallFault Unit) → Prop} :
    Obeys asks ends past (perform (.transfer call)) ↔
      asks past (.transfer call) ∧ ∀ r, ends (⟨.transfer call, r⟩ :: past) (.ok r) := Iff.rfl

@[simp] theorem obeys_readFile {path : String}
    {ends : List Entry → Outcome (Except IoFault ByteArray) → Prop} :
    Obeys asks ends past (perform (.readFile path)) ↔
      asks past (.readFile path) ∧ ∀ r, ends (⟨.readFile path, r⟩ :: past) (.ok r) := Iff.rfl

@[simp] theorem obeys_makeDirectories {path : String}
    {ends : List Entry → Outcome (Except IoFault Unit) → Prop} :
    Obeys asks ends past (perform (.makeDirectories path)) ↔
      asks past (.makeDirectories path) ∧
        ∀ r, ends (⟨.makeDirectories path, r⟩ :: past) (.ok r) := Iff.rfl

@[simp] theorem obeys_writeFile {path : String} {bytes : ByteArray}
    {ends : List Entry → Outcome (Except IoFault Unit) → Prop} :
    Obeys asks ends past (perform (.writeFile path bytes)) ↔
      asks past (.writeFile path bytes) ∧
        ∀ r, ends (⟨.writeFile path bytes, r⟩ :: past) (.ok r) := Iff.rfl

@[simp] theorem obeys_storeLock {request : LockRequest} {t : Int64}
    {ends : List Entry → Outcome LockDecision → Prop} :
    Obeys asks ends past (perform (.store (.lock request t))) ↔
      asks past (.store (.lock request t)) ∧
        ∀ d, ends (⟨.store (.lock request t), d⟩ :: past) (.ok d) := Iff.rfl

@[simp] theorem obeys_storeUnlock {request : UnlockRequest}
    {ends : List Entry → Outcome (Outcome Unit) → Prop} :
    Obeys asks ends past (perform (.store (.unlock request))) ↔
      asks past (.store (.unlock request)) ∧
        ∀ r, ends (⟨.store (.unlock request), r⟩ :: past) (.ok r) := Iff.rfl

@[simp] theorem obeys_reserve {id : String} {requirements : Requirements}
    {ends : List Entry → Outcome Bool → Prop} :
    Obeys asks ends past (perform (.store (.reserve id requirements))) ↔
      asks past (.store (.reserve id requirements)) ∧
        ∀ b, ends (⟨.store (.reserve id requirements), b⟩ :: past) (.ok b) := Iff.rfl

end Action

namespace Node

variable {α : Type} {asks : List Entry → Effect → Prop} {past : List Entry}

@[simp] theorem obeys_now {ends : List Entry → Outcome Int64 → Prop} :
    now.Obeys asks ends past ↔ asks past .now ∧ ∀ t, ends (⟨.now, t⟩ :: past) (.ok t) := Iff.rfl

@[simp] theorem obeys_emit {event : NodeEvent} {ends : List Entry → Outcome Unit → Prop} :
    (emit event).Obeys asks ends past ↔
      asks past (.emit event) ∧ ∀ u, ends (⟨.emit event, u⟩ :: past) (.ok u) := Iff.rfl

@[simp] theorem obeys_insertProposal {p : Proposal} {ends : List Entry → Outcome Bool → Prop} :
    (insertProposal p).Obeys asks ends past ↔
      asks past (.store (.insert p)) ∧ ∀ b, ends (⟨.store (.insert p), b⟩ :: past) (.ok b) := Iff.rfl

@[simp] theorem obeys_removeProposal {id : String}
    {ends : List Entry → Outcome (Option Proposal) → Prop} :
    (removeProposal id).Obeys asks ends past ↔
      asks past (.store (.remove id)) ∧ ∀ p, ends (⟨.store (.remove id), p⟩ :: past) (.ok p) := Iff.rfl

@[simp] theorem obeys_releaseSlot {id : String} {ends : List Entry → Outcome Unit → Prop} :
    (releaseSlot id).Obeys asks ends past ↔
      asks past (.store (.finish id)) ∧ ∀ u, ends (⟨.store (.finish id), u⟩ :: past) (.ok u) := Iff.rfl

@[simp] theorem obeys_canHandle {p : Proposal} {ends : List Entry → Outcome Bool → Prop} :
    (canHandle p).Obeys asks ends past ↔
      asks past (.store (.canHandle p.requirements)) ∧
        ∀ b, ends (⟨.store (.canHandle p.requirements), b⟩ :: past) (.ok b) := Iff.rfl

@[simp] theorem obeys_proposal? {id : String} {ends : List Entry → Outcome (Option Proposal) → Prop} :
    (proposal? id).Obeys asks ends past ↔
      asks past (.store (.get id)) ∧ ∀ p, ends (⟨.store (.get id), p⟩ :: past) (.ok p) := Iff.rfl

/-- A proposal that has to be there is looked up, and is then the one found. -/
@[simp] theorem obeys_requireProposal {id : String} {ends : List Entry → Outcome Proposal → Prop} :
    (requireProposal id).Obeys asks ends past ↔
      asks past (.store (.get id)) ∧
        (∀ p, ends (⟨.store (.get id), some p⟩ :: past) (.ok p)) ∧
          ends (⟨.store (.get id), none⟩ :: past) (.error (.proposalNotFound id)) := by
  simp only [requireProposal, Action.obeys_bind, obeys_proposal?, Action.then_ok]
  refine and_congr_right fun _ => ⟨fun h => ⟨fun p => h (some p), h none⟩, fun h p => ?_⟩
  cases p with
  | none => exact h.2
  | some p => exact h.1 p

@[simp] theorem obeys_transition {id : String} {target : TaskState} {patch : Patch}
    {ends : List Entry → Outcome Proposal → Prop} :
    (transition id target patch).Obeys asks ends past ↔
      asks past (.store (.transition id target patch)) ∧
        ∀ r, ends (⟨.store (.transition id target patch), r⟩ :: past) r := Iff.rfl

@[simp] theorem obeys_setProgress {id : String} {progress : Option Json}
    {ends : List Entry → Outcome Unit → Prop} :
    (setProgress id progress).Obeys asks ends past ↔
      asks past (.store (.setProgress id progress)) ∧
        ∀ r, ends (⟨.store (.setProgress id progress), r⟩ :: past) r := Iff.rfl

/-- A request reads the clock and makes one call; what the call brings is its result. -/
@[simp] theorem obeys_request {s : Settings} {peer : PeerId} {kind : MessageKind} {c : Codec α}
    {payload : α} {ends : List Entry → Outcome Json → Prop} :
    (request s peer kind c payload).Obeys asks ends past ↔
      asks past .now ∧ ∀ t,
        asks (⟨.now, t⟩ :: past) (.call (requestCall s peer kind c payload t)) ∧
          ∀ r, ends (⟨.call (requestCall s peer kind c payload t), r⟩ :: ⟨.now, t⟩ :: past)
            (readAnswer peer r) := Iff.rfl

/-- What is done for the executor of a proposal follows a look-up and a check of who is asking. -/
theorem obeys_forExecutor {id : String} {sender : PeerId} {f : Proposal → Action α}
    {ends : List Entry → Outcome α → Prop} :
    (do
      let p ← requireProposal id
      Action.ofOutcome (checkExecutor p sender)
      f p : Action α).Obeys asks ends past ↔
      asks past (.store (.get id)) ∧
        (∀ p, (∀ e, checkExecutor p sender = .error e →
            ends (⟨.store (.get id), some p⟩ :: past) (.error e)) ∧
          (checkExecutor p sender = .ok () →
            (f p).Obeys asks ends (⟨.store (.get id), some p⟩ :: past))) ∧
        ends (⟨.store (.get id), none⟩ :: past) (.error (.proposalNotFound id)) := by
  simp only [Action.obeys_bind, obeys_requireProposal, Action.then_ok, Action.then_error,
    Action.obeys_ofOutcome]
  refine and_congr_right fun _ => and_congr_left fun _ => forall_congr' fun p => ?_
  cases checkExecutor p sender <;> simp

end Node

end TaskSwarm
