/-
Records survive being written and read again.

A node forwards, logs and stores what it accepted, each time as the value it
writes the record as. Reading that value gives the same record, so nothing
drifts however often this happens. Every codec of the wire and of the records is
put together from parts that keep what they read, so each of them is faithful
for the reasons its parts are; `records_survive_reencoding` gathers them.
-/
import TaskSwarm.Event.Basic
import TaskSwarm.Message.Envelope
import TaskSwarm.Proofs.Document.FaithfulRecord

set_option autoImplicit false

namespace TaskSwarm

open RecordField (faithful_required faithful_withDefault faithful_optional)

/-! ## Once more through memory -/

namespace Codec

variable {α : Type} {c : Codec α}

/-- Whatever is read from a value in memory is read from what it is written as, in order or not. -/
def Survives (c : Codec α) : Prop :=
  ∀ v x, c.ofJson v = .ok x →
    c.ofJson (c.encode x).canonical = .ok x ∧ c.ofJson (c.encode x) = .ok x

theorem Keeps.ofJson {a : α} (h : c.Keeps a) :
    c.ofJson (c.encode a).canonical = .ok a ∧ c.ofJson (c.encode a) = .ok a :=
  ⟨h.reads _ _ (conveys_canonical rfl _ h.distinct), h.reads _ _ (conveys_ofJson rfl _)⟩

theorem Faithful.survives (hc : c.Faithful) : c.Survives :=
  fun v x h => (hc .value _ x (Document.wordless_ofJson v) h).ofJson

end Codec

/-! ## Fields of common kinds -/

section

variable (name : String)

theorem faithful_text : (RecordField.required name .string).Faithful :=
  faithful_required name (Codec.faithful_textAs _)

theorem faithful_time : (RecordField.required name .int64).Faithful :=
  faithful_required name Codec.faithful_int64

theorem faithful_count (bound : Nat) (expected : String) :
    (RecordField.required name (.unsigned bound expected)).Faithful :=
  faithful_required name (Codec.faithful_unsigned bound expected)

theorem faithful_double : (RecordField.required name .float).Faithful :=
  faithful_required name Codec.faithful_float

theorem faithful_value : (RecordField.required name .json).Faithful :=
  faithful_required name Codec.faithful_json

theorem faithful_doubleOr (default : Float) :
    (RecordField.withDefault name .float default).Faithful :=
  faithful_withDefault name Codec.faithful_float (Codec.keeps_float default)

theorem faithful_countOr {bound default : Nat} (expected : String) (h : default < bound) :
    (RecordField.withDefault name (.unsigned bound expected) default).Faithful :=
  faithful_withDefault name (Codec.faithful_unsigned bound expected) (Codec.keeps_unsigned expected h)

theorem faithful_orNone {α : Type} {c : Codec α} (hc : c.Faithful) (hsolid : c.Solid) :
    (RecordField.withDefault name c.option none).Faithful :=
  faithful_withDefault name (hc.option hsolid) (Codec.keeps_none c)

theorem faithful_textOrNone : (RecordField.withDefault name (.option .string) none).Faithful :=
  faithful_orNone name (Codec.faithful_textAs _) (Codec.solid_textAs _)

theorem faithful_valueOrNone : (RecordField.withDefault name (.option .json) none).Faithful :=
  faithful_orNone name Codec.faithful_json Codec.solid_json

/-- A value that is left out when there is none. -/
theorem faithful_omittingNone {α : Type} {c : Codec (Option α)}
    (h : (RecordField.withDefault name c none).Faithful) :
    ((RecordField.withDefault name c none).omitting Option.isNone).Faithful := by
  refine h.omitting fun a ha => ?_
  rw [Option.isNone_iff_eq_none.1 ha]
  rfl

end

/-! ## Payloads and envelopes -/

theorem TaskState.faithful_codec : TaskState.codec.Faithful :=
  Codec.faithful_oneOf (by decide)

theorem MessageKind.faithful_codec : MessageKind.codec.Faithful :=
  Codec.faithful_oneOf (by decide)

theorem ResponseStatus.faithful_codec : ResponseStatus.codec.Faithful :=
  Codec.faithful_oneOf (by decide)

theorem Request.faithful_codec : Request.codec.Faithful :=
  Codec.faithful_record
    ⟨faithful_required _ MessageKind.faithful_codec, faithful_value _, faithful_time _, trivial⟩
    (by decide) (fun _ => rfl) (fun _ => rfl)

theorem Response.faithful_codec : Response.codec.Faithful :=
  Codec.faithful_record
    ⟨faithful_required _ ResponseStatus.faithful_codec,
      faithful_omittingNone _ (faithful_valueOrNone _),
      faithful_omittingNone _ (faithful_textOrNone _), faithful_time _, trivial⟩
    (by decide) (fun _ => rfl) (fun _ => rfl)

theorem Acceptance.faithful_codec : Acceptance.codec.Faithful :=
  Codec.faithful_record ⟨faithful_text _, faithful_text _, faithful_time _, trivial⟩
    (by decide) (fun _ => rfl) (fun _ => rfl)

theorem StatusUpdate.faithful_codec : StatusUpdate.codec.Faithful :=
  Codec.faithful_record
    ⟨faithful_text _, faithful_required _ TaskState.faithful_codec, faithful_valueOrNone _,
      faithful_time _, trivial⟩
    (by decide) (fun _ => rfl) (fun _ => rfl)

theorem LockRequest.faithful_codec : LockRequest.codec.Faithful :=
  Codec.faithful_record ⟨faithful_text _, faithful_text _, faithful_text _, trivial⟩
    (by decide) (fun _ => rfl) (fun _ => rfl)

theorem LockAnswer.faithful_codec : LockAnswer.codec.Faithful :=
  Codec.faithful_record
    ⟨faithful_required _ Codec.faithful_bool, faithful_textOrNone _, faithful_textOrNone _, trivial⟩
    (by decide) (fun _ => rfl) (fun _ => rfl)

theorem UnlockRequest.faithful_codec : UnlockRequest.codec.Faithful :=
  Codec.faithful_record ⟨faithful_text _, faithful_text _, trivial⟩
    (by decide) (fun _ => rfl) (fun _ => rfl)

theorem UnlockAnswer.faithful_codec : UnlockAnswer.codec.Faithful :=
  Codec.faithful_record
    ⟨faithful_required _ Codec.faithful_bool, faithful_omittingNone _ (faithful_textOrNone _), trivial⟩
    (by decide) (fun _ => rfl) (fun _ => rfl)

theorem TaskResult.faithful_codec : TaskResult.codec.Faithful :=
  Codec.faithful_record ⟨faithful_text _, faithful_value _, faithful_time _, trivial⟩
    (by decide) (fun _ => rfl) (fun _ => rfl)

theorem Cancellation.faithful_codec : Cancellation.codec.Faithful :=
  Codec.faithful_record ⟨faithful_text _, faithful_textOrNone _, faithful_time _, trivial⟩
    (by decide) (fun _ => rfl) (fun _ => rfl)

/-! ## Tasks -/

theorem Requirements.faithful_codec : Requirements.codec.Faithful :=
  Codec.faithful_record
    ⟨faithful_doubleOr _ _, faithful_doubleOr _ _, faithful_doubleOr _ _, faithful_doubleOr _ _,
      trivial⟩
    (by decide) (fun _ => rfl) (fun _ => rfl)

/-- The requirements of a task that says nothing are those of an object without members. -/
theorem Requirements.keeps_default : Requirements.codec.Keeps .default :=
  Requirements.faithful_codec .value (.obj [] .closed) _ trivial rfl

theorem faithful_texts (name : String) :
    (RecordField.withDefault name (.list .string) []).Faithful :=
  faithful_withDefault name (Codec.faithful_textAs _).list (Codec.keeps_list nofun)

/-- Paths are left out when there are none. -/
theorem Container.faithful_paths (name : String) :
    ((RecordField.withDefault name (.list pathCodec) []).omitting List.isEmpty).Faithful := by
  have hplain : (RecordField.withDefault name (.list pathCodec) []).Faithful :=
    faithful_withDefault name (Codec.faithful_textAs _).list (Codec.keeps_list nofun)
  refine hplain.omitting fun a ha => ?_
  rw [List.isEmpty_iff.1 ha]
  rfl

theorem Container.faithful_codec : Container.codec.Faithful :=
  Codec.faithful_record
    ⟨faithful_text _, faithful_text _,
      faithful_withDefault _ (Codec.faithful_textAs _).map (Codec.keeps_map nofun),
      faithful_texts _, faithful_texts _, Container.faithful_paths _, trivial⟩
    (by decide) (fun _ => rfl) (fun _ => rfl)

/-- No workload is one of which only the two texts that have to be there are. -/
theorem Container.keeps_empty : Container.codec.Keeps .empty :=
  Container.faithful_codec .value
    (.obj [(.plain "image", .str (.plain "")), (.plain "command", .str (.plain ""))] .closed) _
    ⟨trivial, trivial, trivial⟩ rfl

theorem TaskSpec.faithful_codec : TaskSpec.codec.Faithful :=
  Codec.faithful_record
    ⟨faithful_withDefault _ Requirements.faithful_codec Requirements.keeps_default,
      faithful_withDefault _ Container.faithful_codec Container.keeps_empty,
      faithful_countOr _ _ (by decide), faithful_countOr _ _ (by decide),
      faithful_countOr _ _ (by decide), trivial⟩
    (by decide) (fun _ => rfl) (fun _ => rfl)

theorem Proposal.faithful_codec : Proposal.codec.Faithful :=
  Codec.faithful_record
    ⟨faithful_text _, faithful_text _,
      faithful_withDefault _ Codec.faithful_int64 (Codec.keeps_int64 0),
      faithful_withDefault _ Requirements.faithful_codec Requirements.keeps_default,
      faithful_required _ Container.faithful_codec,
      faithful_countOr _ _ (by decide), faithful_countOr _ _ (by decide),
      faithful_countOr _ _ (by decide),
      faithful_withDefault _ TaskState.faithful_codec (Codec.keeps_oneOf (by decide) (by decide)),
      faithful_textOrNone _, faithful_valueOrNone _, faithful_valueOrNone _, faithful_textOrNone _,
      faithful_orNone _ Codec.faithful_int64 Codec.solid_int64, faithful_textOrNone _, trivial⟩
    (by decide) (fun _ => rfl) (fun _ => rfl)

/-! ## Nodes and peers -/

theorem Capabilities.faithful_codec : Capabilities.codec.Faithful :=
  Codec.faithful_record
    ⟨faithful_doubleOr _ _, faithful_doubleOr _ _, faithful_doubleOr _ _, faithful_doubleOr _ _,
      (faithful_countOr _ _ (by decide)).alsoNamed _, trivial⟩
    (by decide) (fun _ => rfl) (fun _ => rfl)

theorem CapabilitiesUpdate.faithful_codec : CapabilitiesUpdate.codec.Faithful := by
  have hdouble : ∀ name, (RecordField.optional name .float).Faithful :=
    fun name => faithful_optional name Codec.faithful_float Codec.solid_float
  exact Codec.faithful_record
    ⟨hdouble _, hdouble _, hdouble _, hdouble _,
      faithful_optional _ (Codec.faithful_unsigned _ _) (Codec.solid_unsigned _ _), trivial⟩
    (by decide) (fun _ => rfl) (fun _ => rfl)

theorem Bandwidth.faithful_codec : Bandwidth.codec.Faithful :=
  Codec.faithful_record ⟨faithful_double _, faithful_double _, trivial⟩
    (by decide) (fun _ => rfl) (fun _ => rfl)

theorem PeerMetrics.faithful_codec : PeerMetrics.codec.Faithful :=
  Codec.faithful_record
    ⟨faithful_optional _ (Codec.faithful_unsigned _ _) (Codec.solid_unsigned _ _),
      faithful_double _, faithful_required _ Bandwidth.faithful_codec, trivial⟩
    (by decide) (fun _ => rfl) (fun _ => rfl)

theorem PeerStatus.faithful_codec : PeerStatus.codec.Faithful :=
  Codec.faithful_oneOf (by decide)

theorem PeerConnection.faithful_codec : PeerConnection.codec.Faithful :=
  Codec.faithful_record
    ⟨faithful_text _, faithful_required _ PeerStatus.faithful_codec, faithful_time _,
      faithful_required _ PeerMetrics.faithful_codec, faithful_count _ _ _, trivial⟩
    (by decide) (fun _ => rfl) (fun _ => rfl)

theorem NetworkStats.faithful_codec : NetworkStats.codec.Faithful :=
  Codec.faithful_record
    ⟨faithful_count _ _ _, faithful_count _ _ _, faithful_double _, faithful_double _,
      faithful_double _, trivial⟩
    (by decide) (fun _ => rfl) (fun _ => rfl)

/-! ## Events -/

namespace NodeEvent

/-- Only events of a kind are written as one of it. -/
theorem name_of_members {v : Variant NodeEvent} (hv : v ∈ variants) {e : NodeEvent}
    (h : (v.members? e).isSome) : v.name = e.kind := by
  simp only [variants, List.mem_cons, List.not_mem_nil, or_false] at hv
  rcases hv with rfl | rfl | rfl | rfl | rfl | rfl | rfl | rfl | rfl | rfl | rfl | rfl | rfl | rfl <;>
    cases e <;> first | rfl | cases h

theorem apart_variants : Variant.Apart variants where
  names := by decide
  values _ hv _ hw _ hva hwa := (name_of_members hv hva).trans (name_of_members hw hwa).symm

theorem faithful_variants : ∀ v ∈ variants, v.Faithful "type" := by
  have hid : (RecordField.required "proposal_id" .string).Faithful := faithful_text _
  have hpeer : (RecordField.required "peer_id" .string).Faithful := faithful_text _
  intro v hv
  simp only [variants, List.mem_cons, List.not_mem_nil, or_false] at hv
  rcases hv with rfl | rfl | rfl | rfl | rfl | rfl | rfl | rfl | rfl | rfl | rfl | rfl | rfl | rfl
  all_goals refine Variant.faithful_of ?_ (by decide) (by decide) fun _ => rfl
  · exact ⟨hid, faithful_required _ Proposal.faithful_codec, trivial⟩
  · exact ⟨hid, faithful_text _, faithful_required _ Proposal.faithful_codec, trivial⟩
  · exact ⟨hid, faithful_required _ TaskState.faithful_codec,
      faithful_required _ TaskState.faithful_codec, trivial⟩
  · exact ⟨hid, faithful_text _, trivial⟩
  · exact ⟨hid, trivial⟩
  · exact ⟨hid, faithful_text _, trivial⟩
  · exact ⟨faithful_text _, faithful_required _ TaskState.faithful_codec,
      faithful_optional _ Codec.faithful_json Codec.solid_json, trivial⟩
  · exact ⟨hid, faithful_value _, trivial⟩
  · exact ⟨hid, faithful_text _, trivial⟩
  · exact ⟨hid, faithful_text _, faithful_count _ _ _, trivial⟩
  · exact ⟨hpeer, faithful_required _ PeerConnection.faithful_codec, trivial⟩
  · exact ⟨hpeer, faithful_count _ _ _, trivial⟩
  · exact ⟨hpeer, faithful_required _ PeerMetrics.faithful_codec, trivial⟩
  · exact ⟨hpeer, faithful_text _, trivial⟩

theorem faithful_codec : NodeEvent.codec.Faithful :=
  Variant.faithful_codec apart_variants faithful_variants _

end NodeEvent

/-! ## All of them -/

/-- Whatever a node read of the wire and of its records, it reads again from what it writes it as. -/
theorem records_survive_reencoding :
    Request.codec.Survives ∧ Response.codec.Survives ∧ Acceptance.codec.Survives ∧
    StatusUpdate.codec.Survives ∧ LockRequest.codec.Survives ∧ LockAnswer.codec.Survives ∧
    UnlockRequest.codec.Survives ∧ UnlockAnswer.codec.Survives ∧ TaskResult.codec.Survives ∧
    Cancellation.codec.Survives ∧ Proposal.codec.Survives ∧ TaskSpec.codec.Survives ∧
    Requirements.codec.Survives ∧ Container.codec.Survives ∧ Capabilities.codec.Survives ∧
    CapabilitiesUpdate.codec.Survives ∧ TaskState.codec.Survives ∧ PeerConnection.codec.Survives ∧
    PeerMetrics.codec.Survives ∧ NetworkStats.codec.Survives ∧ NodeEvent.codec.Survives :=
  ⟨Request.faithful_codec.survives, Response.faithful_codec.survives,
    Acceptance.faithful_codec.survives, StatusUpdate.faithful_codec.survives,
    LockRequest.faithful_codec.survives, LockAnswer.faithful_codec.survives,
    UnlockRequest.faithful_codec.survives, UnlockAnswer.faithful_codec.survives,
    TaskResult.faithful_codec.survives, Cancellation.faithful_codec.survives,
    Proposal.faithful_codec.survives, TaskSpec.faithful_codec.survives,
    Requirements.faithful_codec.survives, Container.faithful_codec.survives,
    Capabilities.faithful_codec.survives, CapabilitiesUpdate.faithful_codec.survives,
    TaskState.faithful_codec.survives, PeerConnection.faithful_codec.survives,
    PeerMetrics.faithful_codec.survives, NetworkStats.faithful_codec.survives,
    NodeEvent.faithful_codec.survives⟩

/-- Capabilities under an old name, beside a member nobody knows, are written under the new name and
read as the same. -/
theorem alias_survives_reencoding :
    let x : Capabilities := ⟨4.0, 8192.0, 100.0, 100.0, 3⟩
    Capabilities.codec.ofJson (.obj [("maxConcurrentTasks", .nat 3), ("noise", .null)]) = .ok x ∧
      Capabilities.codec.ofJson (Capabilities.codec.encode x).canonical = .ok x := by
  obtain ⟨-, -, -, -, -, -, -, -, -, -, -, -, -, -, hsurvives, -⟩ := records_survive_reencoding
  have hread : Capabilities.codec.ofJson (.obj [("maxConcurrentTasks", .nat 3), ("noise", .null)]) =
      .ok ⟨4.0, 8192.0, 100.0, 100.0, 3⟩ := rfl
  exact ⟨hread, (hsurvives _ _ hread).1⟩

end TaskSwarm
