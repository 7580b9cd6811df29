/-
What a file of settings comes to.

A file need not say everything. What is read has each setting as the file gives it, and as it
is without a file where the file says nothing, whichever sections and settings are left out.
For a section this follows from what a record is drawn from (`Fields.drawn_of_decode`), and
for all sections together because a section that is left out is one that leaves out everything
(`Setting.Follows.within`). The settings are listed by their names, so that what counts as given
does not depend on how a file is read, and the lists are complete: nothing else follows the same
file (`Setting.Complete`). Since every part of it is kept, what was read is read again from what
it is written as (`overlay_of_decode`).
-/
import TaskSwarm.Configuration.Basic
import TaskSwarm.Proofs.Document.Parts
import TaskSwarm.Proofs.Message.Reencoding
import TaskSwarm.Proofs.Wire.Address

set_option autoImplicit false

namespace TaskSwarm

/-! ## Settings and trees -/

namespace Document

/-- The part of a tree at the end of a path, of which every step goes by some names or, in an array, by a
place. -/
def at? : List (List String × Nat) → Document → Option Document
  | [], d => some d
  | (names, place) :: path, d => (d.part? names place).bind (at? path)

theorem at?_append (p q : List (List String × Nat)) (d : Document) :
    d.at? (p ++ q) = (d.at? p).bind (at? q) := by
  induction p generalizing d with
  | nil => rfl
  | cons step p ih =>
    obtain ⟨names, place⟩ := step
    simp only [List.cons_append, at?, Option.bind_assoc]
    exact congrArg _ (funext ih)

end Document

/-- A setting: where it stands in a tree, how it is written there, and its value. -/
structure Setting (σ : Type) where
  {α : Type}
  path : List (List String × Nat)
  codec : Codec α
  value : σ → α

namespace Setting

variable {σ : Type} {t : Setting σ} {d : Document} {base a b : σ}

/-- A setting under some names or at a place. -/
def of {α : Type} (names : List String) (place : Nat) (codec : Codec α) (value : σ → α) : Setting σ :=
  ⟨[(names, place)], codec, value⟩

/-- A setting of a section, which is itself a setting. -/
def within (t : Setting σ) (u : Setting t.α) : Setting σ :=
  ⟨t.path ++ u.path, u.codec, u.value ∘ t.value⟩

/-- The value is the one a tree gives, or that of `base` if it gives none. -/
def Follows (t : Setting σ) (d : Document) (base a : σ) : Prop :=
  match d.at? t.path with
  | some e => t.codec.decode .configuration e = .ok (t.value a)
  | none => t.value a = t.value base

/-- A tree leaves no setting open. -/
theorem Follows.value_eq (ha : t.Follows d base a) (hb : t.Follows d base b) : t.value a = t.value b := by
  unfold Follows at ha hb
  cases hat : d.at? t.path with
  | some e =>
    rw [hat] at ha hb
    exact Except.ok.inj (ha.symm.trans hb)
  | none =>
    rw [hat] at ha hb
    exact ha.trans hb.symm

end Setting

/-- Whatever is read consists of these settings, and follows its tree in each of them. -/
structure Codec.Overlays {σ : Type} (c : Codec σ) (ts : List (Setting σ)) (base : σ) : Prop where
  follows : ∀ d a, c.decode .configuration d = .ok a → ∀ t ∈ ts, t.Follows d base a
  complete : ∀ a b, (∀ t ∈ ts, t.value a = t.value b) → a = b

/-- Nothing else follows the tree. -/
theorem Codec.Overlays.follows_iff {σ : Type} {c : Codec σ} {ts : List (Setting σ)} {base : σ}
    (hc : c.Overlays ts base) {d : Document} {a : σ} (h : c.decode .configuration d = .ok a) (b : σ) :
    (∀ t ∈ ts, t.Follows d base b) ↔ b = a := by
  constructor
  · intro hb
    exact hc.complete b a fun t ht => (hb t ht).value_eq (hc.follows d a h t ht)
  · rintro rfl
    exact hc.follows d b h

/-! ## Settings of sections -/

namespace Setting

variable {σ : Type} {t : Setting σ} {ts : List (Setting t.α)} {d : Document} {base a b : σ}

/-- The settings of a section follow the tree around it. -/
theorem Follows.within (h : t.Follows d base a) (hts : t.codec.Overlays ts (t.value base)) :
    ∀ u ∈ ts.map t.within, u.Follows d base a := by
  refine List.forall_mem_map.2 fun u hu => ?_
  unfold Follows at h ⊢
  simp only [Setting.within, Document.at?_append]
  cases hat : d.at? t.path with
  | some e =>
    rw [hat] at h
    exact hts.follows e _ h u hu
  | none =>
    -- The section is left out, and with it all of its settings.
    rw [hat] at h
    exact congrArg u.value h

/-- A section is no more than its settings. -/
theorem value_eq_of_within {base : t.α} (hts : t.codec.Overlays ts base)
    (h : ∀ u ∈ ts.map t.within, u.value a = u.value b) : t.value a = t.value b :=
  hts.complete _ _ (List.forall_mem_map.1 h)

end Setting

/-! ## Settings of records -/

namespace Fields

variable {σ β : Type} {d : Document} {base a b : σ}

/-- The fields as settings. -/
def settings {σ : Type} : {β : Type} → Fields β → Nat → (σ → β) → List (Setting σ)
  | _, .nil, _, _ => []
  | _, .cons f rest, place, value =>
    .of f.names place f.codec (fun a => (value a).1) ::
      rest.settings (place + 1) fun a => (value a).2

/-- Every field takes its part of a record for want of a value. -/
def Defaults : {β : Type} → Fields β → β → Prop
  | _, .nil, _ => True
  | _, .cons f rest, (a, b) => (f.absent = some a ∧ f.short = some a) ∧ rest.Defaults b

theorem follows_of_drawn {fs : Fields β} {value : σ → β} {place : Nat}
    (hbase : fs.Defaults (value base)) (h : fs.Drawn .configuration d place (value a)) :
    ∀ t ∈ fs.settings place value, t.Follows d base a := by
  induction fs generalizing place with
  | nil => exact nofun
  | cons f rest ih =>
    obtain ⟨⟨habsent, hshort⟩, hbase⟩ := hbase
    obtain ⟨hhead, htail⟩ := h
    refine List.forall_mem_cons.2 ⟨?_, ih hbase htail⟩
    unfold RecordField.Drawn at hhead
    simp only [Setting.Follows, Setting.of, Document.at?]
    cases hpart : d.part? f.names place with
    | some e =>
      rw [hpart] at hhead
      exact hhead
    | none =>
      -- An object that lacks the field and an array that ends before it come to the same.
      rw [hpart, habsent, hshort, or_self] at hhead
      exact (Option.some.inj hhead).symm

theorem eq_of_settings {fs : Fields β} {value : σ → β} {place : Nat}
    (h : ∀ t ∈ fs.settings place value, t.value a = t.value b) : value a = value b := by
  induction fs generalizing place with
  | nil => rfl
  | cons f rest ih =>
    obtain ⟨hhead, htail⟩ := List.forall_mem_cons.1 h
    exact Prod.ext hhead (ih htail)

variable {fs : Fields β} {name : String} {make : β → σ} {parts : σ → β}

/-- A record is its fields, each of which follows the tree. -/
theorem overlays_codec (hkeys : fs.keys.Nodup) (hbase : fs.Defaults (parts base))
    (hmake : ∀ a, make (parts a) = a) (hparts : ∀ b, parts (make b) = b) :
    (fs.codec name make parts).Overlays (fs.settings 0 parts) base where
  follows d a h := by
    obtain ⟨b, hdecode, rfl⟩ := exists_of_map_eq_ok h
    obtain ⟨inner, hdrawn, hinner⟩ := drawn_of_decode hkeys hdecode
    obtain rfl := hinner rfl
    exact follows_of_drawn hbase (by rwa [hparts])
  complete a b h := by
    rw [← hmake a, eq_of_settings h, hmake b]

end Fields

/-! ## Sections -/

/-- A setting that may have no value is kept with or without one. -/
theorem RecordField.retentive_absentable {α : Type} (name : String) {c : Codec α} (hc : c.Retentive)
    (hnull : ∀ a, c.encode a ≠ .null) : (absentable name c).Retentive :=
  have h := retentive_withDefault name (hc.option hnull) (Codec.keeps_none c)
  ⟨faithful_omittingNone name h.toFaithful, h.retentive⟩

theorem RecordField.retentive_countOr (name : String) {bound default : Nat} (expected : String)
    (h : default < bound) : (withDefault name (.unsigned bound expected) default).Retentive :=
  retentive_withDefault name (Codec.retentive_unsigned bound expected) (Codec.keeps_unsigned expected h)

theorem RecordField.retentive_textOr (name expected default : String) :
    (withDefault name (.textAs expected) default).Retentive :=
  retentive_withDefault name (Codec.retentive_textAs expected) (Codec.keeps_textAs expected default)

open RecordField (retentive_absentable retentive_countOr retentive_textOr retentive_withDefault)
open Codec (retentive_textAs)

namespace NodeSection

/-- The settings of the section. -/
def allSettings : List (Setting NodeSection) :=
  [.of ["peer-id"] 0 (.option .string) peer,
   .of ["listen"] 1 SocketAddress.codec listen,
   .of ["peers"] 2 (.map SocketAddress.codec) peers]

theorem overlays_codec : codec.Overlays allSettings default :=
  Fields.overlays_codec (by decide) ⟨⟨rfl, rfl⟩, ⟨rfl, rfl⟩, ⟨rfl, rfl⟩, trivial⟩
    (fun _ => rfl) (fun _ => rfl)

theorem retentive_codec : codec.Retentive :=
  Codec.retentive_record
    ⟨retentive_absentable _ (retentive_textAs _) nofun,
      retentive_withDefault _ SocketAddress.retentive_codec (SocketAddress.keeps_codec _),
      retentive_withDefault _ SocketAddress.retentive_codec.map (Codec.keeps_map nofun), trivial⟩
    (by decide) (by decide) (fun _ => rfl) (fun _ => rfl)

end NodeSection

namespace Capabilities

/-- The settings of the section. -/
def allSettings : List (Setting Capabilities) :=
  [.of ["cpu"] 0 .float cpu,
   .of ["memory"] 1 .float memory,
   .of ["bandwidth"] 2 .float bandwidth,
   .of ["storage"] 3 .float storage,
   .of ["max-concurrent-tasks", "maxConcurrentTasks"] 4 .size maxTasks]

theorem overlays_codec : codec.Overlays allSettings default :=
  Fields.overlays_codec (by decide)
    ⟨⟨rfl, rfl⟩, ⟨rfl, rfl⟩, ⟨rfl, rfl⟩, ⟨rfl, rfl⟩, ⟨rfl, rfl⟩, trivial⟩ (fun _ => rfl) (fun _ => rfl)

theorem retentive_codec : codec.Retentive :=
  have hdouble : ∀ name default, (RecordField.withDefault name .float default).Retentive :=
    fun name default => retentive_withDefault name Codec.retentive_float (Codec.keeps_float default)
  Codec.retentive_record
    ⟨hdouble _ _, hdouble _ _, hdouble _ _, hdouble _ _,
      (retentive_countOr _ _ (by decide)).alsoNamed _, trivial⟩
    (by decide) (by decide) (fun _ => rfl) (fun _ => rfl)

end Capabilities

namespace CoordinatorSection

/-- The settings of the section. -/
def allSettings : List (Setting CoordinatorSection) :=
  [.of ["lock-timeout-ms"] 0 .int64 lockTimeout,
   .of ["claim-jitter-ms"] 1 .nat64 claimJitter,
   .of ["request-timeout-ms"] 2 .nat64 requestTimeout,
   .of ["channel-buffer"] 3 .size channelBuffer,
   .of ["inbox-dir"] 4 Container.pathCodec inbox]

theorem overlays_codec : codec.Overlays allSettings default :=
  Fields.overlays_codec (by decide)
    ⟨⟨rfl, rfl⟩, ⟨rfl, rfl⟩, ⟨rfl, rfl⟩, ⟨rfl, rfl⟩, ⟨rfl, rfl⟩, trivial⟩ (fun _ => rfl) (fun _ => rfl)

theorem retentive_codec : codec.Retentive :=
  Codec.retentive_record
    ⟨retentive_withDefault _ Codec.retentive_int64 (Codec.keeps_int64 _), retentive_countOr _ _ (by decide),
      retentive_countOr _ _ (by decide), retentive_countOr _ _ (by decide),
      retentive_textOr _ _ _, trivial⟩
    (by decide) (by decide) (fun _ => rfl) (fun _ => rfl)

end CoordinatorSection

namespace HealthSettings

/-- The settings of the section. -/
def allSettings : List (Setting HealthSettings) :=
  [.of ["tick-interval-ms"] 0 .nat64 tickInterval,
   .of ["heartbeat-interval-ms"] 1 .nat64 heartbeatInterval,
   .of ["reconnect-delay-ms"] 2 .nat64 reconnectDelay,
   .of ["max-retries"] 3 .nat32 maxRetries,
   .of ["probe-timeout-ms"] 4 .nat64 probeTimeout]

theorem overlays_codec : codec.Overlays allSettings default :=
  Fields.overlays_codec (by decide)
    ⟨⟨rfl, rfl⟩, ⟨rfl, rfl⟩, ⟨rfl, rfl⟩, ⟨rfl, rfl⟩, ⟨rfl, rfl⟩, trivial⟩ (fun _ => rfl) (fun _ => rfl)

theorem retentive_codec : codec.Retentive :=
  Codec.retentive_record
    ⟨retentive_countOr _ _ (by decide), retentive_countOr _ _ (by decide),
      retentive_countOr _ _ (by decide), retentive_countOr _ _ (by decide),
      retentive_countOr _ _ (by decide), trivial⟩
    (by decide) (by decide) (fun _ => rfl) (fun _ => rfl)

end HealthSettings

namespace ExecutorSection

/-- The settings of the section. -/
def allSettings : List (Setting ExecutorSection) :=
  [.of ["kind"] 0 ExecutorKind.codec kind,
   .of ["simulated-delay-ms"] 1 .nat64 simulatedDelay,
   .of ["docker-binary"] 2 .string binary,
   .of ["work-dir"] 3 Container.pathCodec workDir]

theorem overlays_codec : codec.Overlays allSettings default :=
  Fields.overlays_codec (by decide) ⟨⟨rfl, rfl⟩, ⟨rfl, rfl⟩, ⟨rfl, rfl⟩, ⟨rfl, rfl⟩, trivial⟩
    (fun _ => rfl) (fun _ => rfl)

theorem retentive_codec : codec.Retentive :=
  Codec.retentive_record
    ⟨retentive_withDefault _ (Codec.retentive_oneOf (by decide)) (Codec.keeps_oneOf (by decide) (by decide)),
      retentive_countOr _ _ (by decide), retentive_textOr _ _ _, retentive_textOr _ _ _, trivial⟩
    (by decide) (by decide) (fun _ => rfl) (fun _ => rfl)

end ExecutorSection

namespace EventsSection

/-- The settings of the section. -/
def allSettings : List (Setting EventsSection) :=
  [.of ["log-dir"] 0 (.option Container.pathCodec) logDir]

theorem overlays_codec : codec.Overlays allSettings default :=
  Fields.overlays_codec (by decide) ⟨⟨rfl, rfl⟩, trivial⟩ (fun _ => rfl) (fun _ => rfl)

theorem retentive_codec : codec.Retentive :=
  Codec.retentive_record ⟨retentive_absentable _ (retentive_textAs _) nofun, trivial⟩
    (by decide) (by decide) (fun _ => rfl) (fun _ => rfl)

end EventsSection

/-! ## All settings -/

namespace Configuration

/-- The node itself, as one setting. -/
def nodeSection : Setting Configuration := .of ["node"] 0 NodeSection.codec node

/-- What it offers. -/
def capabilitiesSection : Setting Configuration := .of ["capabilities"] 1 Capabilities.codec capabilities

/-- How it deals with proposals. -/
def coordinatorSection : Setting Configuration := .of ["coordinator"] 2 CoordinatorSection.codec coordinator

/-- How it watches its peers. -/
def healthSection : Setting Configuration := .of ["health"] 3 HealthSettings.codec health

/-- What runs its tasks. -/
def executorSection : Setting Configuration := .of ["executor"] 4 ExecutorSection.codec executor

/-- Where its events go. -/
def eventsSection : Setting Configuration := .of ["events"] 5 EventsSection.codec events

/-- How much is logged, which stands in no section. -/
def levelSetting : Setting Configuration := .of ["log-level"] 6 (.option .string) logLevel

/-- All settings. -/
def allSettings : List (Setting Configuration) :=
  NodeSection.allSettings.map nodeSection.within ++
  Capabilities.allSettings.map capabilitiesSection.within ++
  CoordinatorSection.allSettings.map coordinatorSection.within ++
  HealthSettings.allSettings.map healthSection.within ++
  ExecutorSection.allSettings.map executorSection.within ++
  EventsSection.allSettings.map eventsSection.within ++ [levelSetting]

/-- The sections and the one setting outside of them. -/
def sections : List (Setting Configuration) :=
  [nodeSection, capabilitiesSection, coordinatorSection, healthSection, executorSection, eventsSection,
    levelSetting]

theorem overlays_sections : codec.Overlays sections default :=
  Fields.overlays_codec (by decide)
    ⟨⟨rfl, rfl⟩, ⟨rfl, rfl⟩, ⟨rfl, rfl⟩, ⟨rfl, rfl⟩, ⟨rfl, rfl⟩, ⟨rfl, rfl⟩, ⟨rfl, rfl⟩, trivial⟩
    (fun _ => rfl) (fun _ => rfl)

theorem overlays_codec : codec.Overlays allSettings default where
  follows d c h := by
    have hsections := overlays_sections.follows d c h
    simp only [sections, List.forall_mem_cons] at hsections
    obtain ⟨hnode, hcapabilities, hcoordinator, hhealth, hexecutor, hevents, hlevel, -⟩ := hsections
    simp only [allSettings, List.forall_mem_append, List.forall_mem_singleton]
    exact ⟨⟨⟨⟨⟨⟨hnode.within NodeSection.overlays_codec,
      hcapabilities.within Capabilities.overlays_codec⟩,
      hcoordinator.within CoordinatorSection.overlays_codec⟩,
      hhealth.within HealthSettings.overlays_codec⟩,
      hexecutor.within ExecutorSection.overlays_codec⟩,
      hevents.within EventsSection.overlays_codec⟩, hlevel⟩
  complete a b h := by
    simp only [allSettings, List.forall_mem_append, List.forall_mem_singleton] at h
    obtain ⟨⟨⟨⟨⟨⟨hnode, hcapabilities⟩, hcoordinator⟩, hhealth⟩, hexecutor⟩, hevents⟩, hlevel⟩ := h
    refine overlays_sections.complete a b ?_
    simp only [sections, List.forall_mem_cons]
    exact ⟨Setting.value_eq_of_within NodeSection.overlays_codec hnode,
      Setting.value_eq_of_within Capabilities.overlays_codec hcapabilities,
      Setting.value_eq_of_within CoordinatorSection.overlays_codec hcoordinator,
      Setting.value_eq_of_within HealthSettings.overlays_codec hhealth,
      Setting.value_eq_of_within ExecutorSection.overlays_codec hexecutor,
      Setting.value_eq_of_within EventsSection.overlays_codec hevents, hlevel, nofun⟩

/-- A section that is left out is kept, since it is what is read of a section that says nothing. -/
theorem retentive_section {σ : Type} (name : String) {c : Codec σ} (hc : c.Retentive) {default : σ}
    (h : c.decode .configuration (.obj [] .closed) = .ok default) :
    (RecordField.withDefault name c default).Retentive :=
  retentive_withDefault name hc (hc _ _ _ h)

theorem retentive_codec : codec.Retentive :=
  Codec.retentive_record
    ⟨retentive_section _ NodeSection.retentive_codec rfl,
      retentive_section _ Capabilities.retentive_codec rfl,
      retentive_section _ CoordinatorSection.retentive_codec rfl,
      retentive_section _ HealthSettings.retentive_codec rfl,
      retentive_section _ ExecutorSection.retentive_codec rfl,
      retentive_section _ EventsSection.retentive_codec rfl,
      retentive_absentable _ (retentive_textAs _) nofun, trivial⟩
    (by decide) (by decide) (fun _ => rfl) (fun _ => rfl)

/-- What is read of a file is the one configuration that has every setting as the file gives it, or as it
is by default where the file gives none, and it is read again from what it is written as. -/
theorem overlay_of_decode {d : Document} {c : Configuration}
    (h : codec.decode .configuration d = .ok c) :
    (∀ c', (∀ t ∈ allSettings, t.Follows d default c') ↔ c' = c) ∧
      codec.decode .configuration (.ofJson (codec.encode c)) = .ok c :=
  ⟨overlays_codec.follows_iff h,
    (retentive_codec _ d c h).reads .configuration _ (conveys_ofJson rfl _)⟩

/-- A section may say little or nothing, and a setting may go by its other name. -/
theorem partial_file_overlaid :
    let d : Document := .obj
      [(.plain "node", .obj [(.plain "peer-id", .scalar "a" true none)] .closed),
       (.plain "capabilities", .obj [(.plain "maxConcurrentTasks", .scalar "3" true none)] .closed),
       (.plain "coordinator", .obj [(.plain "claim-jitter-ms", .scalar "0" true none)] .closed),
       (.plain "events", .scalar "" true none),
       (.plain "log-level", .scalar "debug" true none)] .closed
    let c : Configuration :=
      { default with
        node := { NodeSection.default with peer := some "a" }
        capabilities := { Capabilities.default with maxTasks := 3 }
        coordinator := { CoordinatorSection.default with claimJitter := 0 }
        logLevel := some "debug" }
    codec.decode .configuration d = .ok c ∧
      (∀ c', (∀ t ∈ allSettings, t.Follows d default c') ↔ c' = c) ∧
      codec.decode .configuration (.ofJson (codec.encode c)) = .ok c := by
  intro d c
  have h : codec.decode .configuration d = .ok c := rfl
  exact ⟨h, overlay_of_decode h⟩

end Configuration

end TaskSwarm
