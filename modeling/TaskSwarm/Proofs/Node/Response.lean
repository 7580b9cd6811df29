/-
What a request is answered with, and what has been done by then.

A request is served while other things happen: what it finds in the store is whatever others
have left there, and every other answer it gets is up to its `Surroundings`. All the same it
comes to one response, which is written as one line (`responds`). Each handler is so
arranged that what can go wrong goes wrong before it has changed anything, so that a response
that says no says that all commands of the request were refused or only asked something
(`obeys_denial`). There is one exception: when the files of a LOCKED proposal cannot be sent
to whom it is handed over, it is put back among those that are PROPOSED (`Withdraws`).
-/
import TaskSwarm.Proofs.Document.Record
import TaskSwarm.Proofs.Json.Canonical
import TaskSwarm.Proofs.Node.Duties
import TaskSwarm.Proofs.Store.History
import TaskSwarm.Proofs.Wire.Line

set_option autoImplicit false

namespace TaskSwarm

/-! ## A program among others -/

/-- What a program meets with. Each time it turns to the store, others may have changed it. -/
structure Surroundings where
  /-- The store as it is found after all that was asked and answered, the latest first. -/
  store : List Entry → Store
  answer : List Entry → (e : Effect) → e.Answer

namespace Surroundings

variable {α : Type} {x : Surroundings} {p : Program α} {past later : List Entry}

/-- What an effect is answered with. A command is answered by the store that is found. -/
def reply (x : Surroundings) (past : List Entry) : (e : Effect) → e.Answer
  | .store c => ((x.store past).step c).2.1
  | e => x.answer past e

/-- Answers an effect and takes a note of it. -/
def note (x : Surroundings) (e : Effect) : StateM (List Entry) e.Answer :=
  fun past => (x.reply past e, ⟨e, x.reply past e⟩ :: past)

/-- What a program comes to, and all that was asked and answered by then. -/
def conduct (x : Surroundings) (p : Program α) (past : List Entry) : α × List Entry :=
  p.play x.note past

theorem conduct_ask {e : Effect} {next : e.Answer → Program α} :
    x.conduct (.ask e next) past =
      x.conduct (next (x.reply past e)) (⟨e, x.reply past e⟩ :: past) := rfl

/-- Everything was answered as the surroundings would have it. -/
def Answered (x : Surroundings) : List Entry → Prop
  | [] => True
  | y :: past => y.answer = x.reply past y.effect ∧ x.Answered past

theorem Answered.of_suffix (h : x.Answered later) (hsuffix : past <:+ later) : x.Answered past := by
  induction later with
  | nil =>
    rw [List.suffix_nil.1 hsuffix]
    trivial
  | cons y later ih =>
    obtain rfl | hsuffix := List.suffix_cons_iff.1 hsuffix
    · exact h
    · exact ih h.2 hsuffix

theorem conduct_bind {β : Type} {f : α → Program β} :
    x.conduct (p.bind f) past = x.conduct (f (x.conduct p past).1) (x.conduct p past).2 := by
  induction p generalizing past with
  | done a => rfl
  | ask e next ih => exact ih _

theorem answered_of_conduct {a : α} (hconduct : x.conduct p past = (a, later)) (h : x.Answered past) :
    x.Answered later := by
  induction p generalizing past with
  | done =>
    cases hconduct
    exact h
  | ask e next ih => exact ih _ hconduct ⟨rfl, h⟩

end Surroundings

namespace Program

variable {α : Type} {x : Surroundings} {p : Program α} {asks : List Entry → Effect → Prop}
  {ends : List Entry → α → Prop} {past : List Entry}

/-- What is said of a program whatever it is answered holds of what it comes to anywhere. -/
theorem Obeys.conduct (h : p.Obeys asks ends past) {a : α} {later : List Entry}
    (hconduct : x.conduct p past = (a, later)) : ends later a := by
  induction p generalizing past with
  | done =>
    cases hconduct
    exact h
  | ask e next ih => exact ih _ (h.2 _) hconduct

/-- What a program comes to is what it comes to in the surroundings that have answered it so. -/
theorem Obeys.conducting (h : p.Obeys asks ends past) :
    p.Obeys asks (fun later a => (past <:+ later ∧ (x.Answered later → x.conduct p past = (a, later))) ∧
      ends later a) past := by
  induction p generalizing past with
  | done a => exact ⟨⟨List.suffix_rfl, fun _ => rfl⟩, h⟩
  | ask e next ih =>
    refine ⟨h.1, fun answer => (ih answer (h.2 answer)).mono ?_⟩
    rintro later a ⟨⟨hsuffix, hconduct⟩, hends⟩
    refine ⟨⟨(List.suffix_cons _ _).trans hsuffix, fun hanswered => ?_⟩, hends⟩
    obtain ⟨hanswer, -⟩ := hanswered.of_suffix hsuffix
    have heq : answer = x.reply past e := hanswer
    rw [Surroundings.conduct_ask, ← heq]
    exact hconduct hanswered

end Program

/-! ## Commands that change nothing -/

/-- Whether a command only asks something. -/
def Command.onlyAsks : Command → Bool
  | .get _ | .list _ | .capabilities | .canHandle _ | .activeTasks => true
  | _ => false

/-- Whether a command, going by its answer, has changed nothing: it only asks something, or was refused. -/
def Command.isIdle (c : Command) (answer : c.Reply) : Bool := c.onlyAsks || c.refuses answer

/-- Whether an effect, going by its answer, has changed nothing in the store. -/
def Entry.isIdle : Entry → Bool
  | ⟨.store c, answer⟩ => c.isIdle answer
  | _ => true

theorem Store.step_of_isIdle {s : Store} {c : Command} (h : c.isIdle (s.step c).2.1 = true) :
    (s.step c).1 = s := by
  rw [Command.isIdle, Bool.or_eq_true] at h
  obtain hasks | hrefuses := h
  · cases c with
    | get | list | capabilities | canHandle | activeTasks => rfl
    | _ => cases hasks
  · exact (step_of_refuses hrefuses).1

/-! ## Requests that are denied -/

/-- The kind of a request. -/
def Inbound.kind : Inbound → MessageKind
  | .proposal _ => .proposal
  | .acceptance _ => .acceptance
  | .status _ => .status
  | .lock _ => .lock
  | .unlock _ => .unlock
  | .result _ => .result
  | .cancellation _ => .cancellation

/-- What is asked on the protocol of a kind is of that kind. -/
theorem Inbound.kind_of_ofBytes {kind : MessageKind} {bytes : ByteArray} {m : Inbound}
    (h : ofBytes kind bytes = .ok m) : m.kind = kind := by
  obtain ⟨r, -, h⟩ := exists_of_bind_eq_ok h
  split at h
  · cases h
  · next hkind =>
    rw [← Decidable.not_not.1 hkind]
    unfold ofRequest at h
    cases hk : r.kind <;> rw [hk] at h <;> obtain ⟨_, -, rfl⟩ := exists_of_map_eq_ok h <;> rfl

/-- What a request comes to says no: it is an error, or a lock was not granted or not taken back. -/
def Denies (kind : MessageKind) : Outcome Json → Prop
  | .error _ => True
  | .ok value => (kind = .lock ∨ kind = .unlock) ∧ value.get? "success" = some (.bool false)

/-- A response says no: it is an error, or to a lock or an unlock it says that there was no success. -/
def Response.Denies (kind : MessageKind) (r : Response) : Prop :=
  r.status = .error ∨
    (kind = .lock ∨ kind = .unlock) ∧ (r.result.bind fun v => v.get? "success") = some (.bool false)

theorem Response.denies_of_outcome {kind : MessageKind} {now : Int64} {o : Outcome Json}
    (h : (ofOutcome now o).Denies kind) : TaskSwarm.Denies kind o := by
  cases o with
  | error e => trivial
  | ok v =>
    obtain herror | hdenies := h
    · cases herror
    · exact hdenies

namespace Json

variable {k : String} {v : Json} {ms acc : List (String × Json)}

theorem findEntry_foldl_insertEntry (hk : k ∉ ms.map Prod.fst) :
    findEntry k (ms.foldl (fun ms m => insertEntry m.1 m.2 ms) acc) = findEntry k acc := by
  induction ms generalizing acc with
  | nil => rfl
  | cons m ms ih =>
    obtain ⟨hne, hk⟩ := not_or.1 (mt List.mem_cons.2 hk)
    rw [List.foldl_cons, ih hk, findEntry_insertEntry, if_neg hne]

/-- The first member of an object is still there in its canonical form, if no other has its name. -/
theorem get?_canonical_first (hk : k ∉ ms.map Prod.fst) :
    (Json.obj ((k, v) :: ms)).canonical.get? k = some v.canonical := by
  rw [canonical, canonicalMembers, object, get?, List.foldl_cons,
    findEntry_foldl_insertEntry (by rwa [names_canonicalMembers]), findEntry_insertEntry, if_pos rfl]

end Json

theorem success_of_lock (a : LockAnswer) :
    (LockAnswer.codec.encode a).canonical.get? "success" = some (.bool a.success) := by
  have hother : "success" ∉ ["reason", "lockId"] := by decide
  exact Json.get?_canonical_first hother

theorem success_of_unlock (a : UnlockAnswer) :
    (UnlockAnswer.codec.encode a).canonical.get? "success" = some (.bool a.success) := by
  have hother : "success" ∉ ["reason"] := by decide
  obtain ⟨success, reason⟩ := a
  cases reason with
  | none => exact Json.get?_canonical_first List.not_mem_nil
  | some reason => exact Json.get?_canonical_first hother

namespace Node

open TaskSwarm.Action

variable {s : Settings} {sender : PeerId} {x : Surroundings}

/-- How a request may end that says no only if it has changed nothing. -/
def IdleIfDenied (kind : MessageKind) (past : List Entry) (o : Outcome Json) : Prop :=
  Denies kind o → past.all Entry.isIdle = true

/-- Only about locks a request can say no and not fail. -/
theorem idleIfDenied_ok {kind : MessageKind} {past : List Entry} {v : Json} (hlock : kind ≠ .lock)
    (hunlock : kind ≠ .unlock) : IdleIfDenied kind past (.ok v) := fun hdenies =>
  (hdenies.1.elim hlock hunlock).elim

theorem denial_of_lock {r : LockRequest} :
    (handle s sender (.lock r)).Obeys (fun _ _ => True) (IdleIfDenied .lock) [] := by
  simp only [handle, handleLock, obeys_bind, obeys_now, obeys_storeLock, then_ok, obeys_pure]
  refine ⟨trivial, fun t => ⟨trivial, fun d hdenies => ?_⟩⟩
  cases d with
  | granted token former =>
    have hsuccess := hdenies.2
    rw [success_of_lock] at hsuccess
    cases hsuccess
  | denied denial => rfl

theorem denial_of_unlock {r : UnlockRequest} :
    (handle s sender (.unlock r)).Obeys (fun _ _ => True) (IdleIfDenied .unlock) [] := by
  simp only [handle, handleUnlock, obeys_bind, obeys_storeUnlock, then_ok]
  refine ⟨trivial, fun answer => ?_⟩
  rcases answer with e | ⟨⟩
  · -- A wrong token is an answer of its own, and everything else an error.
    cases e <;> exact fun _ => rfl
  · intro hdenies
    have hsuccess := hdenies.2
    rw [success_of_unlock] at hsuccess
    cases hsuccess

theorem denial_of_status {u : StatusUpdate} :
    (handle s sender (.status u)).Obeys (fun _ _ => True) (IdleIfDenied .status) [] := by
  rw [handle, handleStatus, obeys_forExecutor]
  refine ⟨trivial, fun p => ⟨fun _ _ _ => rfl, fun _ => ?_⟩, fun _ => rfl⟩
  simp only [obeys_bind, obeys_ite, obeys_transition, obeys_setProgress]
  refine ⟨fun _ => ⟨trivial, ?_⟩, fun _ => ⟨trivial, ?_⟩⟩
  · rintro (e | q)
    · exact fun _ => rfl
    · simp [idleIfDenied_ok, Except.map]
  · rintro (e | _)
    · exact fun _ => rfl
    · simp [idleIfDenied_ok, Except.map]

theorem denial_of_result {a : TaskResult} :
    (handle s sender (.result a)).Obeys (fun _ _ => True) (IdleIfDenied .result) [] := by
  rw [handle, handleResult, obeys_forExecutor]
  refine ⟨trivial, fun p => ⟨fun _ _ _ => rfl, fun _ => ?_⟩, fun _ => rfl⟩
  simp only [obeys_bind, obeys_transition]
  refine ⟨trivial, ?_⟩
  rintro (e | q)
  · exact fun _ => rfl
  · simp [idleIfDenied_ok, Except.map]

theorem denial_of_cancellation {a : Cancellation} :
    (handle s sender (.cancellation a)).Obeys (fun _ _ => True) (IdleIfDenied .cancellation) [] := by
  simp only [handle, handleCancellation, obeys_bind, obeys_proposal?, then_ok]
  refine ⟨trivial, fun found => ?_⟩
  cases found with
  | none => simp [idleIfDenied_ok]
  | some p =>
    simp only [obeys_ite, obeys_bind, obeys_throw, then_error, obeys_transition, obeys_pure]
    refine ⟨fun _ _ => rfl, fun _ => ⟨fun _ => ⟨trivial, ?_⟩, fun _ => by simp [idleIfDenied_ok]⟩⟩
    rintro (e | q)
    · exact fun _ => rfl
    · simp [idleIfDenied_ok, Except.map]

/-- Once a proposal has passed the check, nothing goes wrong. -/
theorem denial_of_proposal {p : Proposal} :
    (handle s sender (.proposal p)).Obeys (fun _ _ => True) (IdleIfDenied .proposal) [] := by
  simp only [handle, handleProposal, obeys_bind, obeys_ofOutcome]
  cases p.validateReceived with
  | error e => exact fun _ => rfl
  | ok _ => simp [scheduleClaim, idleIfDenied_ok, Except.map]

/-! ### Acceptances -/

/-- The files of a LOCKED proposal of the node's own could not be sent to whom it was to be handed over,
and the command puts it back among those that are PROPOSED. -/
inductive Withdraws (x : Surroundings) (s : Settings) : Inbound → Command → List Entry → Prop
  | files {a : Acceptance} {p : Proposal} {e : SwarmError} {before : List Entry} :
      p.proposer = s.peer → p.state = .locked →
      x.conduct (streamFiles s a.acceptedBy p.id p.container.inputFiles).run
        [⟨.store (.get a.proposalId), some p⟩] = (.error e, before) →
      Withdraws x s (.acceptance a) (.transition p.id .proposed .none) before

/-- Nothing was changed, unless by a withdrawal at the very end. -/
inductive Harmless (x : Surroundings) (s : Settings) (m : Inbound) : List Entry → Prop
  | idle {past : List Entry} : past.all Entry.isIdle = true → Harmless x s m past
  | withdrawn {c : Command} {answer : c.Reply} {before : List Entry} : Withdraws x s m c before →
      before.all Entry.isIdle = true → Harmless x s m (⟨.store c, answer⟩ :: before)

/-- Files are sent without the store. -/
theorem idle_streamFiles {peer : PeerId} {id : String} {paths : List String} {past : List Entry}
    (hpast : past.all Entry.isIdle = true) :
    (streamFiles s peer id paths).Obeys (fun _ _ => True) (fun later o =>
      (x.Answered later → x.conduct (streamFiles s peer id paths).run past = (o, later)) ∧
        later.all Entry.isIdle = true) past := by
  have hfiles : (streamFiles s peer id paths).Obeys (fun _ e => ∀ c, e ≠ .store c)
      (fun _ o => paths = [] → o = .ok ()) past :=
    obeys_streamFiles (fun _ _ _ => nofun) fun _ _ _ => nofun
  refine ((Program.Obeys.conducting (x := x) hfiles.adding).imp fun _ _ _ => trivial).mono ?_
  rintro later o ⟨⟨-, hconduct⟩, hnew, -⟩
  refine ⟨hconduct, List.all_eq_true.2 fun y hy => ?_⟩
  obtain hy | hstore := hnew y hy
  · exact List.all_eq_true.1 hpast y hy
  · obtain ⟨e, answer⟩ := y
    cases e with
    | store c => exact absurd rfl (hstore c)
    | _ => rfl

theorem denial_of_acceptance {a : Acceptance} :
    (handle s sender (.acceptance a)).Obeys (fun _ _ => True)
      (fun past o => x.Answered past → Denies .acceptance o → Harmless x s (.acceptance a) past) [] := by
  simp only [handle, handleAcceptance, obeys_bind, obeys_requireProposal, then_ok, then_error, obeys_ite,
    obeys_throw, obeys_outcome, ne_eq]
  refine ⟨trivial, fun p => ⟨fun _ _ _ => .idle rfl, fun hproposer => ⟨fun _ _ _ => .idle rfl,
    fun hstate => ?_⟩⟩, fun _ _ => .idle rfl⟩
  refine (idle_streamFiles (x := x) rfl).mono ?_
  rintro later (e | u) ⟨hconduct, hidle⟩
  · simp only [obeys_bind, obeys_outcome, obeys_transition, obeys_throw, then_ok, then_error]
    refine ⟨trivial, fun r hanswered _ => .withdrawn ?_ hidle⟩
    exact .files (Decidable.not_not.1 hproposer) (Decidable.not_not.1 hstate) (hconduct hanswered.2)
  · simp only [obeys_bind, obeys_transition]
    refine ⟨trivial, ?_⟩
    rintro (e | q)
    · exact fun _ _ => .idle hidle
    · simp [Denies, Except.map]

/-! ### All requests -/

/-- A request that is denied has changed nothing, or was to be accepted and is put back at the end. -/
theorem obeys_denial (m : Inbound) :
    (handle s sender m).Obeys (fun _ _ => True)
      (fun past o => x.Answered past → Denies m.kind o → Harmless x s m past) [] := by
  cases m with
  | proposal => exact denial_of_proposal.mono fun _ _ h _ hdenies => .idle (h hdenies)
  | acceptance => exact denial_of_acceptance
  | status => exact denial_of_status.mono fun _ _ h _ hdenies => .idle (h hdenies)
  | lock => exact denial_of_lock.mono fun _ _ h _ hdenies => .idle (h hdenies)
  | unlock => exact denial_of_unlock.mono fun _ _ h _ hdenies => .idle (h hdenies)
  | result => exact denial_of_result.mono fun _ _ h _ hdenies => .idle (h hdenies)
  | cancellation => exact denial_of_cancellation.mono fun _ _ h _ hdenies => .idle (h hdenies)

/-- Among idle entries each command has left the store as it found it. -/
theorem unchanged_of_idle {past before : List Entry} {c : Command} {answer : c.Reply}
    (hidle : past.all Entry.isIdle = true) (hanswered : x.Answered past)
    (hsuffix : ⟨.store c, answer⟩ :: before <:+ past) : ((x.store before).step c).1 = x.store before := by
  have hentry : c.isIdle answer = true :=
    List.all_eq_true.1 hidle _ (hsuffix.subset List.mem_cons_self)
  have hanswer : answer = ((x.store before).step c).2.1 := (hanswered.of_suffix hsuffix).1
  rw [hanswer] at hentry
  exact Store.step_of_isIdle hentry

theorem Harmless.unchanged {m : Inbound} {past before : List Entry} {c : Command} {answer : c.Reply}
    (h : Harmless x s m past) (hanswered : x.Answered past) (hsuffix : ⟨.store c, answer⟩ :: before <:+ past) :
    ((x.store before).step c).1 = x.store before ∨ Withdraws x s m c before := by
  cases h with
  | idle hidle => exact .inl (unchanged_of_idle hidle hanswered hsuffix)
  | withdrawn hwithdraws hidle =>
    obtain heq | hsuffix := List.suffix_cons_iff.1 hsuffix
    · cases heq
      exact .inr hwithdraws
    · exact .inl (unchanged_of_idle hidle hanswered.2 hsuffix)

/-! ## Responses -/

/-- A request is served, the clock is read, and the response is written. -/
theorem conduct_respond {kind : MessageKind} {bytes : ByteArray} {o : Outcome Json} {past : List Entry}
    (h : x.conduct (serveRequest s sender kind bytes).run [] = (o, past)) :
    ∃ now, x.conduct (respond s sender kind bytes) [] =
      (Wire.writeMessage Response.codec (.ofOutcome now o), ⟨.now, now⟩ :: past) := by
  refine ⟨x.reply past .now, ?_⟩
  have hrespond : respond s sender kind bytes = (serveRequest s sender kind bytes).run.bind fun o =>
      .ask .now fun now => .done (Wire.writeMessage Response.codec (.ofOutcome now o)) := rfl
  rw [hrespond, Surroundings.conduct_bind, h]
  rfl

/-- Of a request that could not be read nothing was done, and of one that is denied nothing stays but for
a withdrawal. -/
theorem unchanged_of_denies {kind : MessageKind} {bytes : ByteArray} {o : Outcome Json}
    {past before : List Entry} {c : Command} {answer : c.Reply}
    (h : x.conduct (serveRequest s sender kind bytes).run [] = (o, past)) (hdenies : Denies kind o)
    (hsuffix : ⟨.store c, answer⟩ :: before <:+ past) :
    ((x.store before).step c).1 = x.store before ∨
      ∃ m, Inbound.ofBytes kind bytes = .ok m ∧ Withdraws x s m c before := by
  cases hread : Inbound.ofBytes kind bytes with
  | error e =>
    rw [serveRequest_of_error hread] at h
    cases h
    cases hsuffix.subset List.mem_cons_self
  | ok m =>
    rw [serveRequest_of_ok hread] at h
    have hanswered : x.Answered past := Surroundings.answered_of_conduct h trivial
    have hharmless : Denies m.kind o → Harmless x s m past :=
      Program.Obeys.conduct (obeys_denial m) h hanswered
    rw [← Inbound.kind_of_ofBytes hread] at hdenies
    obtain hunchanged | hwithdraws := (hharmless hdenies).unchanged hanswered hsuffix
    · exact .inl hunchanged
    · exact .inr ⟨m, rfl, hwithdraws⟩

/-- Every request is answered once, and a denial changes nothing. Whatever bytes come on the protocol of a
kind of requests, and whatever the node meets with while it serves them, it writes one response, on one
line. If that says no, every command to the store has left it as it was found, but for one that puts a
LOCKED proposal back because its files could not be sent. A request of another kind is answered with an
error. -/
theorem answered_once (s : Settings) (sender : PeerId) (kind : MessageKind) (bytes : ByteArray) :
    serve s sender (Protocol.ofKind kind) bytes = some (respond s sender kind bytes) ∧
    ∀ x : Surroundings, ∃ (r : Response) (line : List UInt8),
      (x.conduct (respond s sender kind bytes) []).1 = Wire.writeMessage Response.codec r ∧
      Wire.writeMessage Response.codec r = (line ++ [Wire.newline]).toByteArray ∧
      Wire.newline ∉ line ∧
      (r.Denies kind → ∀ (c : Command) (answer : c.Reply) (before : List Entry),
        ⟨.store c, answer⟩ :: before <:+ (x.conduct (respond s sender kind bytes) []).2 →
        ((x.store before).step c).1 = x.store before ∨
          ∃ m, Inbound.ofBytes kind bytes = .ok m ∧ Withdraws x s m c before) ∧
      (∀ request, Wire.readFirst Request.codec bytes = .ok request → request.kind ≠ kind →
        r.status = .error) := by
  refine ⟨by rw [serve, Protocol.kind?_ofKind], fun x => ?_⟩
  cases hserve : x.conduct (serveRequest s sender kind bytes).run [] with
  | mk o past =>
    obtain ⟨now, hrespond⟩ := conduct_respond hserve
    rw [hrespond]
    refine ⟨.ofOutcome now o, _, rfl, Wire.writeMessage_eq _ _, Wire.newline_not_mem_textBytes _, ?_, ?_⟩
    · intro hdenies c answer before hsuffix
      obtain heq | hsuffix := List.suffix_cons_iff.1 hsuffix
      · cases heq
      · exact unchanged_of_denies hserve (Response.denies_of_outcome hdenies) hsuffix
    · intro request hrequest hkind
      have hread : Inbound.ofBytes kind bytes =
          .error (.protocol (.other ("Unexpected message type " ++ request.kind.title))) := by
        unfold Inbound.ofBytes
        rw [hrequest]
        exact if_pos hkind
      rw [serveRequest_of_error hread] at hserve
      cases hserve
      rfl

end Node

end TaskSwarm
