/-
What a peer hears.

A payload is sent with its members in order, written down, scanned, and taken in
as a value again, from which its record is read. `Json.Heard` is this way of a
value from peer to peer. Texts and truth values come out as they went in, and the
members of an object are heard one by one; only numbers may differ, and they do
not matter to who a message is about. `Inbound.of_requestCall` says what a node is
asked by the bytes that another one sends, and `Node.outcome_of_readAnswer` what
a node learns from the bytes that it is answered with.
-/
import TaskSwarm.Message.Inbound
import TaskSwarm.Node.Exchange
import TaskSwarm.Proofs.Document.Record
import TaskSwarm.Proofs.Json.Canonical
import TaskSwarm.Proofs.Wire.Line

set_option autoImplicit false

namespace TaskSwarm

/-! ## Values -/

namespace Json

/-- What may be taken in for a value that is sent. -/
def Heard (v j : Json) : Prop := ∃ s : Source, v.canonical.tree.toJson s = .ok j

theorem Heard.str {t : String} {j : Json} (h : Heard (.str t) j) : j = .str t := by
  obtain ⟨s, h⟩ := h
  cases h
  rfl

theorem Heard.bool {b : Bool} {j : Json} (h : Heard (.bool b) j) : j = .bool b := by
  obtain ⟨s, h⟩ := h
  cases h
  rfl

theorem Heard.null {j : Json} (h : Heard .null j) : j = .null := by
  obtain ⟨s, h⟩ := h
  cases h
  rfl

theorem mem_of_mem_foldl_insertEntry {ms acc : List (String × Json)} {m : String × Json}
    (h : m ∈ ms.foldl (fun ms m => insertEntry m.1 m.2 ms) acc) : m ∈ acc ∨ m ∈ ms := by
  induction ms generalizing acc with
  | nil => exact Or.inl h
  | cons m' ms ih =>
    rcases ih h with h | h
    · rcases mem_insertEntry h with h | h
      · exact Or.inr (h ▸ List.mem_cons_self)
      · exact Or.inl h
    · exact Or.inr (List.mem_cons_of_mem _ h)

/-- An object made from members has no others. -/
theorem exists_object_eq (ms : List (String × Json)) :
    ∃ ms', object ms = .obj ms' ∧ ms' ⊆ ms := by
  refine ⟨_, rfl, fun m hm => ?_⟩
  rcases mem_of_mem_foldl_insertEntry hm with hm | hm
  · cases hm
  · exact hm

theorem memberTrees_eq_map (ms : List (String × Json)) :
    memberTrees ms = ms.map fun m => (.plain m.1, m.2.tree) := by
  induction ms with
  | nil => rfl
  | cons m ms ih =>
    obtain ⟨k, v⟩ := m
    rw [memberTrees, ih, List.map_cons]

theorem ofMembers_eq_map (ms : List (String × Json)) :
    Document.ofMembers ms = ms.map fun m => (.plain m.1, .ofJson m.2) := by
  induction ms with
  | nil => rfl
  | cons m ms ih =>
    obtain ⟨k, v⟩ := m
    rw [Document.ofMembers, ih, List.map_cons]

/-- Members that are taken in are those that were written. -/
theorem mem_toMembers {s : Source} {ms ms' : List (String × Json)} {k : String} {j : Json}
    (h : Document.toMembers s (memberTrees ms) = .ok ms') (hmem : (k, j) ∈ ms') :
    ∃ v, (k, v) ∈ ms ∧ v.tree.toJson s = .ok j := by
  induction ms generalizing ms' with
  | nil =>
    cases h
    cases hmem
  | cons m ms ih =>
    obtain ⟨k', v⟩ := m
    obtain ⟨name, hname, h⟩ := exists_of_bind_eq_ok h
    obtain ⟨j', hv, h⟩ := exists_of_bind_eq_ok h
    obtain ⟨rest, hms, h⟩ := exists_of_bind_eq_ok h
    cases hname
    cases h
    rcases List.mem_cons.1 hmem with hmem | hmem
    · cases hmem
      exact ⟨v, List.mem_cons_self, hv⟩
    · obtain ⟨u, hu, hj⟩ := ih hms hmem
      exact ⟨u, List.mem_cons_of_mem _ hu, hj⟩

/-- The members of an object are heard one by one. -/
theorem Heard.obj {ms : List (String × Json)} {j : Json} (h : Heard (.obj ms) j) :
    ∃ ms', j = .obj ms' ∧ ∀ k j', (k, j') ∈ ms' → ∃ v, (k, v) ∈ ms ∧ Heard v j' := by
  obtain ⟨s, h⟩ := h
  obtain ⟨sent, hsent, hsub⟩ := exists_object_eq (canonicalMembers ms)
  rw [canonical, hsent, tree, Document.toJson] at h
  obtain ⟨inner, hinner, h⟩ := exists_of_bind_eq_ok h
  obtain ⟨taken, htaken, h⟩ := exists_of_bind_eq_ok h
  obtain ⟨_, -, h⟩ := exists_of_bind_eq_ok h
  cases h
  -- Both the writer and the reader sort the members, and neither adds any.
  obtain ⟨ms', hms', hsub'⟩ := exists_object_eq taken
  refine ⟨ms', hms', fun k j' hmem => ?_⟩
  obtain ⟨v, hv, hj⟩ := mem_toMembers htaken (hsub' hmem)
  have hv := hsub hv
  rw [canonicalMembers_eq_map] at hv
  obtain ⟨⟨k, u⟩, hu, heq⟩ := List.mem_map.1 hv
  cases heq
  exact ⟨u, hu, inner, hj⟩

end Json

open Json (Heard)

/-! ## Records -/

/-- What is read from a payload is what its tree decodes to. -/
theorem Codec.decode_of_read {α : Type} {c : Codec α} {j : Json} {a : α} (h : c.read j = .ok a) :
    c.decode .value (.ofJson j) = .ok a := by
  cases hdecode : c.decode .value (.ofJson j) with
  | error e =>
    simp only [read, ofJson, hdecode] at h
    cases h
  | ok a' =>
    simp only [read, ofJson, hdecode] at h
    cases h
    rfl

namespace Fields

variable {α β : Type} {fs : Fields β} {name : String} {make : β → α} {parts : α → β}

/-- How a part of a payload gets to its reader. -/
def heard (v : Json) (d : Document) : Prop := ∃ j, Heard v j ∧ d = .ofJson j

/-- A record that is read from a payload echoes the one that was sent. -/
theorem echo_of_read (hplain : fs.isPlain = true) {a b : α} {j : Json}
    (hheard : Heard ((fs.codec name make parts).encode a) j)
    (hread : (fs.codec name make parts).read j = .ok b) :
    ∃ bs, b = make bs ∧ fs.Echo .value heard (parts a) bs := by
  obtain ⟨ms, rfl, hms⟩ := Heard.obj hheard
  obtain ⟨bs, hbs, rfl⟩ := exists_of_map_eq_ok (Codec.decode_of_read hread)
  obtain ⟨inner, hinner, hreads⟩ := reads_of_decode hbs
  cases hinner
  refine ⟨bs, rfl, echo_of_reads hplain hreads ?_⟩
  intro l d hmem k _ hkey
  rw [Json.ofMembers_eq_map] at hmem
  obtain ⟨⟨k', j'⟩, hj', heq⟩ := List.mem_map.1 hmem
  cases heq
  cases hkey
  obtain ⟨v, hv, hheard⟩ := hms _ _ hj'
  exact ⟨v, hv, j', hheard, rfl⟩

/-- A record that is read from the tree of its text echoes the one that was written. -/
theorem echo_of_decode (hplain : fs.isPlain = true) {s : Source} {a b : α}
    (h : (fs.codec name make parts).decode s ((fs.codec name make parts).encode a).tree = .ok b) :
    ∃ inner bs, b = make bs ∧ fs.Echo inner (fun v d => d = v.tree) (parts a) bs := by
  simp only [codec, Json.tree] at h
  obtain ⟨bs, hbs, rfl⟩ := exists_of_map_eq_ok h
  obtain ⟨inner, -, hreads⟩ := reads_of_decode hbs
  refine ⟨inner, bs, rfl, echo_of_reads hplain hreads ?_⟩
  intro l d hmem k _ hkey
  rw [Json.memberTrees_eq_map] at hmem
  obtain ⟨⟨k', v⟩, hv, heq⟩ := List.mem_map.1 hmem
  cases heq
  cases hkey
  exact ⟨v, hv, rfl⟩

end Fields

/-- A required text is heard as it is. -/
theorem Codec.string_of_heard {s : Source} {t t' : String}
    (h : ∃ d, Fields.heard (Codec.string.encode t) d ∧ Codec.string.decode s d = .ok t') : t' = t := by
  obtain ⟨d, ⟨j, hheard, rfl⟩, hdecode⟩ := h
  cases hheard.str
  cases hdecode
  rfl

/-- A value that may be missing is missing, or is read as one that may not. -/
theorem Codec.eq_of_option_decode {α : Type} {c : Codec α} {s : Source} {d : Document} {r : Option α}
    (h : c.option.decode s d = .ok r) : r = none ∨ ∃ a, r = some a ∧ c.decode s d = .ok a := by
  have hsome : ∀ {d}, (c.decode s d).map some = .ok r → ∃ a, r = some a ∧ c.decode s d = .ok a := by
    intro d h
    obtain ⟨a, hdecode, rfl⟩ := exists_of_map_eq_ok h
    exact ⟨a, rfl, hdecode⟩
  simp only [option] at h
  split at h
  · cases h
    exact Or.inl rfl
  · split at h
    · cases h
      exact Or.inl rfl
    · cases h
  · split at h
    · cases h
      exact Or.inl rfl
    · exact Or.inr (hsome h)
  · exact Or.inr (hsome h)

/-! ## Payloads -/

theorem LockRequest.eq_of_heard {r r' : LockRequest} {j : Json}
    (hheard : Heard (LockRequest.codec.encode r) j) (hread : LockRequest.codec.read j = .ok r') :
    r' = r := by
  obtain ⟨⟨id, token, requester, ⟨⟩⟩, rfl, hecho⟩ := Fields.echo_of_read rfl hheard hread
  simp only [Fields.Echo, RecordField.required, reduceCtorEq, or_false, and_true] at hecho
  obtain ⟨hid, htoken, hrequester⟩ := hecho
  cases Codec.string_of_heard hid
  cases Codec.string_of_heard htoken
  cases Codec.string_of_heard hrequester
  rfl

theorem UnlockRequest.eq_of_heard {r r' : UnlockRequest} {j : Json}
    (hheard : Heard (UnlockRequest.codec.encode r) j) (hread : UnlockRequest.codec.read j = .ok r') :
    r' = r := by
  obtain ⟨⟨id, token, ⟨⟩⟩, rfl, hecho⟩ := Fields.echo_of_read rfl hheard hread
  simp only [Fields.Echo, RecordField.required, reduceCtorEq, or_false, and_true] at hecho
  cases Codec.string_of_heard hecho.1
  cases Codec.string_of_heard hecho.2
  rfl

theorem Acceptance.eq_of_heard {x x' : Acceptance} {j : Json}
    (hheard : Heard (Acceptance.codec.encode x) j) (hread : Acceptance.codec.read j = .ok x') :
    x'.proposalId = x.proposalId ∧ x'.acceptedBy = x.acceptedBy := by
  obtain ⟨⟨id, acceptedBy, timestamp, ⟨⟩⟩, rfl, hecho⟩ := Fields.echo_of_read rfl hheard hread
  simp only [Fields.Echo, RecordField.required, reduceCtorEq, or_false, and_true] at hecho
  exact ⟨Codec.string_of_heard hecho.1, Codec.string_of_heard hecho.2.1⟩

theorem TaskState.eq_of_heard {s : Source} {t t' : TaskState}
    (h : ∃ d, Fields.heard (TaskState.codec.encode t) d ∧ TaskState.codec.decode s d = .ok t') :
    t' = t := by
  obtain ⟨d, ⟨j, hheard, rfl⟩, hdecode⟩ := h
  cases t <;> (cases hheard.str; cases hdecode; rfl)

theorem StatusUpdate.eq_of_heard {u u' : StatusUpdate} {j : Json}
    (hheard : Heard (StatusUpdate.codec.encode u) j) (hread : StatusUpdate.codec.read j = .ok u') :
    u'.taskId = u.taskId ∧ u'.status = u.status := by
  obtain ⟨⟨id, status, progress, timestamp, ⟨⟩⟩, rfl, hecho⟩ := Fields.echo_of_read rfl hheard hread
  simp only [Fields.Echo, RecordField.required, reduceCtorEq, or_false, and_true] at hecho
  exact ⟨Codec.string_of_heard hecho.1, TaskState.eq_of_heard hecho.2.1⟩

/-- What may be taken in for a result that is sent. -/
def Json.Carried (v j : Json) : Prop :=
  ∃ u, Heard v u ∧ (Document.ofJson u).toJson .value = .ok j

/-- A result that is taken in as it was sent. -/
def Json.Survives (v : Json) : Prop := ∀ j, v.Carried j → j = v

theorem Json.survives_str (t : String) : (Json.str t).Survives := by
  rintro j ⟨u, hheard, hj⟩
  rw [hheard.str] at hj
  cases hj
  rfl

theorem TaskResult.eq_of_heard {x x' : TaskResult} {j : Json}
    (hheard : Heard (TaskResult.codec.encode x) j) (hread : TaskResult.codec.read j = .ok x') :
    x'.proposalId = x.proposalId ∧ x.result.Carried x'.result := by
  obtain ⟨⟨id, result, timestamp, ⟨⟩⟩, rfl, hecho⟩ := Fields.echo_of_read rfl hheard hread
  simp only [Fields.Echo, RecordField.required, reduceCtorEq, or_false, and_true] at hecho
  obtain ⟨hid, ⟨d, ⟨u, hu, rfl⟩, hdecode⟩, -⟩ := hecho
  exact ⟨Codec.string_of_heard hid, u, hu, hdecode⟩

theorem Cancellation.eq_of_heard {c c' : Cancellation} {j : Json}
    (hheard : Heard (Cancellation.codec.encode c) j) (hread : Cancellation.codec.read j = .ok c') :
    c'.proposalId = c.proposalId := by
  obtain ⟨⟨id, reason, timestamp, ⟨⟩⟩, rfl, hecho⟩ := Fields.echo_of_read rfl hheard hread
  simp only [Fields.Echo, RecordField.required, reduceCtorEq, or_false, and_true] at hecho
  exact Codec.string_of_heard hecho.1

/-- A proposal is heard under its id and from its proposer, and as PROPOSED if it is. -/
theorem Proposal.eq_of_heard {p p' : Proposal} {j : Json}
    (hheard : Heard (Proposal.codec.encode p) j) (hread : Proposal.codec.read j = .ok p') :
    p'.id = p.id ∧ p'.proposer = p.proposer ∧ (p.state = .proposed → p'.state = .proposed) := by
  obtain ⟨⟨id, proposer, timestamp, requirements, container, instances, timeout, maxRetries, state,
    acceptedBy, result, progress, lockId, lockTime, lockedBy, ⟨⟩⟩, rfl, hecho⟩ :=
      Fields.echo_of_read rfl hheard hread
  simp only [Fields.Echo, RecordField.required, RecordField.withDefault, reduceCtorEq, or_false,
    Option.some.injEq] at hecho
  obtain ⟨hid, hproposer, -, -, -, -, -, -, hstate, -⟩ := hecho
  refine ⟨Codec.string_of_heard hid, Codec.string_of_heard hproposer, fun hproposed => ?_⟩
  rcases hstate with hstate | hstate
  · exact (TaskState.eq_of_heard hstate).trans hproposed
  · exact hstate.symm

/-- Whether a lock was granted is heard as it was said. -/
theorem LockAnswer.success_of_heard {a a' : LockAnswer} {j : Json}
    (hheard : Heard (LockAnswer.codec.encode a) j) (hread : LockAnswer.codec.read j = .ok a') :
    a'.success = a.success := by
  obtain ⟨⟨success, reason, token, ⟨⟩⟩, rfl, hecho⟩ := Fields.echo_of_read rfl hheard hread
  simp only [Fields.Echo, RecordField.required, reduceCtorEq, or_false, and_true] at hecho
  obtain ⟨⟨d, ⟨j, hj, rfl⟩, hdecode⟩, -⟩ := hecho
  cases hj.bool
  cases hdecode
  rfl

/-! ## Envelopes -/

theorem MessageKind.eq_of_tree {s : Source} {k k' : MessageKind}
    (h : MessageKind.codec.decode s (MessageKind.codec.encode k).tree = .ok k') : k' = k := by
  cases k <;> (cases h; rfl)

/-- A request is read as one of its kind, with its payload as it is heard. -/
theorem Request.of_readFirst {α : Type} {kind : MessageKind} {c : Codec α} {payload : α}
    {now : Int64} {r : Request}
    (h : Wire.readFirst Request.codec (Wire.writeMessage Request.codec (.new kind c payload now)) =
      .ok r) : r.kind = kind ∧ Heard (c.encode payload) r.payload := by
  have hdecode := Wire.decode_of_readFirst rfl h
  obtain ⟨inner, ⟨kind', payload', timestamp, ⟨⟩⟩, rfl, hecho⟩ := Fields.echo_of_decode rfl hdecode
  simp only [Fields.Echo, RecordField.required, reduceCtorEq, or_false, and_true,
    exists_eq_left] at hecho
  exact ⟨MessageKind.eq_of_tree hecho.1, inner, hecho.2.1⟩

/-! ## Requests -/

namespace Inbound

open Node (requestCall)

section

variable {α : Type} {s : Settings} {peer : PeerId} {kind kind' : MessageKind} {c : Codec α}
  {payload : α} {now : Int64} {m : Inbound}

/-- What is asked by the bytes of a request is what is heard of its payload. -/
theorem of_requestCall (h : ofBytes kind (requestCall s peer kind' c payload now).bytes = .ok m) :
    ∃ j, Heard (c.encode payload) j ∧ ∃ t, ofRequest ⟨kind', j, t⟩ = .ok m := by
  obtain ⟨r, hr, hm⟩ := exists_of_bind_eq_ok h
  obtain ⟨hkind, hheard⟩ := Request.of_readFirst hr
  split at hm
  · cases hm
  · obtain ⟨k, j, t⟩ := r
    cases hkind
    exact ⟨j, hheard, t, hm⟩

end

variable {s : Settings} {peer : PeerId} {kind : MessageKind} {now : Int64} {m : Inbound}

theorem of_proposal {p : Proposal}
    (h : ofBytes kind (requestCall s peer .proposal Proposal.codec p now).bytes = .ok m) :
    ∃ q, m = .proposal q ∧ q.id = p.id ∧ q.proposer = p.proposer ∧
      (p.state = .proposed → q.state = .proposed) := by
  obtain ⟨j, hheard, t, hm⟩ := of_requestCall h
  obtain ⟨q, hread, rfl⟩ := exists_of_map_eq_ok hm
  exact ⟨q, rfl, Proposal.eq_of_heard hheard hread⟩

theorem of_acceptance {x : Acceptance}
    (h : ofBytes kind (requestCall s peer .acceptance Acceptance.codec x now).bytes = .ok m) :
    ∃ y, m = .acceptance y ∧ y.proposalId = x.proposalId ∧ y.acceptedBy = x.acceptedBy := by
  obtain ⟨j, hheard, t, hm⟩ := of_requestCall h
  obtain ⟨y, hread, rfl⟩ := exists_of_map_eq_ok hm
  exact ⟨y, rfl, Acceptance.eq_of_heard hheard hread⟩

theorem of_status {u : StatusUpdate}
    (h : ofBytes kind (requestCall s peer .status StatusUpdate.codec u now).bytes = .ok m) :
    ∃ v, m = .status v ∧ v.taskId = u.taskId ∧ v.status = u.status := by
  obtain ⟨j, hheard, t, hm⟩ := of_requestCall h
  obtain ⟨v, hread, rfl⟩ := exists_of_map_eq_ok hm
  exact ⟨v, rfl, StatusUpdate.eq_of_heard hheard hread⟩

theorem of_lock {r : LockRequest}
    (h : ofBytes kind (requestCall s peer .lock LockRequest.codec r now).bytes = .ok m) :
    m = .lock r := by
  obtain ⟨j, hheard, t, hm⟩ := of_requestCall h
  obtain ⟨r', hread, rfl⟩ := exists_of_map_eq_ok hm
  rw [LockRequest.eq_of_heard hheard hread]

theorem of_unlock {r : UnlockRequest}
    (h : ofBytes kind (requestCall s peer .unlock UnlockRequest.codec r now).bytes = .ok m) :
    m = .unlock r := by
  obtain ⟨j, hheard, t, hm⟩ := of_requestCall h
  obtain ⟨r', hread, rfl⟩ := exists_of_map_eq_ok hm
  rw [UnlockRequest.eq_of_heard hheard hread]

theorem of_result {x : TaskResult}
    (h : ofBytes kind (requestCall s peer .result TaskResult.codec x now).bytes = .ok m) :
    ∃ y, m = .result y ∧ y.proposalId = x.proposalId ∧ x.result.Carried y.result := by
  obtain ⟨j, hheard, t, hm⟩ := of_requestCall h
  obtain ⟨y, hread, rfl⟩ := exists_of_map_eq_ok hm
  exact ⟨y, rfl, TaskResult.eq_of_heard hheard hread⟩

theorem of_cancellation {c : Cancellation}
    (h : ofBytes kind (requestCall s peer .cancellation Cancellation.codec c now).bytes = .ok m) :
    ∃ d, m = .cancellation d ∧ d.proposalId = c.proposalId := by
  obtain ⟨j, hheard, t, hm⟩ := of_requestCall h
  obtain ⟨d, hread, rfl⟩ := exists_of_map_eq_ok hm
  exact ⟨d, rfl, Cancellation.eq_of_heard hheard hread⟩

end Inbound

/-! ## Answers -/

namespace Node

variable {peer : PeerId} {now : Int64} {o : Outcome Json} {v : Json}

/-- What a node learns from an answer is what came of its request, as it is heard. -/
theorem outcome_of_readAnswer
    (h : readAnswer peer (.ok (Wire.writeMessage Response.codec (.ofOutcome now o))) = .ok v) :
    ∃ u, o = .ok u ∧ (v = .null ∨ ∃ s : Source, u.tree.toJson s = .ok v) := by
  obtain ⟨bytes, hbytes, h⟩ := exists_of_bind_eq_ok h
  cases hbytes
  obtain ⟨r, hr, h⟩ := exists_of_bind_eq_ok h
  have hdecode := Wire.decode_of_readFirst rfl hr
  obtain ⟨inner, ⟨status, result, message, timestamp, ⟨⟩⟩, rfl, hecho⟩ :=
    Fields.echo_of_decode rfl hdecode
  cases o with
  | error e =>
    -- A fault is answered as one, and no outcome is read from it.
    simp only [Fields.Echo, RecordField.required, Response.ofOutcome, Response.error, reduceCtorEq,
      or_false, exists_eq_left] at hecho
    cases hecho.1
    cases h
  | ok u =>
    refine ⟨u, rfl, ?_⟩
    simp only [Fields.Echo, RecordField.required, RecordField.withDefault, RecordField.omitting,
      Response.ofOutcome, Response.ok, reduceCtorEq, or_false, exists_eq_left, Option.some.injEq]
      at hecho
    obtain ⟨hstatus, hresult, -⟩ := hecho
    cases hstatus
    simp only [Response.outcome, Except.ok.injEq] at h
    -- A result that is left out, or null, is taken for null.
    rcases hresult with hresult | hresult
    · rcases Codec.eq_of_option_decode hresult with rfl | ⟨v', rfl, hv⟩
      · exact Or.inl h.symm
      · exact Or.inr ⟨inner, h ▸ hv⟩
    · subst hresult
      exact Or.inl h.symm

/-- The lock that a node is told to have was granted. -/
theorem granted_of_readAnswer {d : LockDecision} {a : LockAnswer}
    (h : readAnswer peer (.ok (Wire.writeMessage Response.codec
      (.ofOutcome now (.ok (LockAnswer.codec.encode (.ofDecision d)).canonical)))) = .ok v)
    (hread : LockAnswer.codec.read v = .ok a) (hsuccess : a.success = true) :
    ∃ token former, d = .granted token former := by
  obtain ⟨u, hu, hv⟩ := outcome_of_readAnswer h
  cases hu
  rcases hv with rfl | ⟨s, hv⟩
  · cases hread
  · have hsaid := LockAnswer.success_of_heard ⟨s, hv⟩ hread
    rw [hsuccess] at hsaid
    cases d with
    | granted token former => exact ⟨token, former, rfl⟩
    | denied denial => cases hsaid

end Node

end TaskSwarm
