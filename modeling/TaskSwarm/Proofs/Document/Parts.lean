/-
Which part of a tree a field is read from.

A field has a few names and a place. In an object its value stands under one of the names,
and in an array at the place; elsewhere there is none (`Document.part?`). A record that was
read has, for each of its fields, what the field reads from the part it is given, or what it
takes for want of one (`Fields.drawn_of_decode`). This says more than that the value came from
some member: no other part could have been meant, and nothing that is given is passed over.
It holds of bare words as well, so that records of settings are kept whatever they were read
from (`Codec.retentive_record`).
-/
import TaskSwarm.Proofs.Document.FaithfulRecord

set_option autoImplicit false

namespace TaskSwarm

/-- The part of a tree that stands under one of some names or, in an array, at a place. -/
def Document.part? (names : List String) (place : Nat) : Document → Option Document
  | .obj ms _ => (ms.find? fun m => names.contains m.1.text).map Prod.snd
  | .arr items _ => items[place]?
  | _ => none

theorem Document.text_of_literal {l : Literal} {key : String} (h : literal l = .ok key) : l.text = key := by
  obtain ⟨text, unpaired, broken⟩ := l
  cases unpaired with
  | some e => cases h
  | none =>
    cases broken with
    | some e => cases h
    | none =>
      cases h
      rfl

/-- The names under which a field is read. -/
def RecordField.names {α : Type} (f : RecordField α) : List String := f.name :: f.aliases

/-- The value of a field is read from the part of a tree that is given for it, or is what the field takes
without one. -/
def RecordField.Drawn {α : Type} (f : RecordField α) (s : Source) (d : Document) (place : Nat) (a : α) :
    Prop :=
  match d.part? f.names place with
  | some e => f.codec.decode s e = .ok a
  | none => f.absent = some a ∨ f.short = some a

theorem RecordField.answers_eq {α : Type} (f : RecordField α) (key : String) :
    f.answers key = f.names.contains key := by
  rw [answers, names, List.contains_cons]
  rfl

namespace Fields

variable {β : Type} {s : Source} {ms : List (Literal × Document)} {l : Literal} {d : Document}
  {key : String}

/-- All names under which some field is read. -/
def keys : {β : Type} → Fields β → List String
  | _, .nil => []
  | _, .cons f rest => f.names ++ rest.keys

/-- The values of the fields are drawn from a tree, from one place on. -/
def Drawn (s : Source) (d : Document) : {β : Type} → Fields β → Nat → β → Prop
  | _, .nil, _, _ => True
  | _, .cons f rest, place, (a, b) => f.Drawn s d place a ∧ rest.Drawn s d (place + 1) b

/-! ## Parts of an object -/

/-- What was read of a record so far comes from the first member for each field, and there is nothing of a
field without a member. -/
def Tracks (s : Source) (ms : List (Literal × Document)) : {β : Type} → (fs : Fields β) → fs.Draft → Prop
  | _, .nil, _ => True
  | _, .cons f rest, draft =>
    (match ms.find? fun m => f.names.contains m.1.text with
      | some m => ∃ a, draft.1 = some a ∧ f.codec.decode s m.2 = .ok a
      | none => draft.1 = none) ∧
    rest.Tracks s ms draft.2

theorem tracks_blank (fs : Fields β) : fs.Tracks s [] fs.blank := by
  induction fs with
  | nil => trivial
  | cons f rest ih => exact ⟨rfl, ih⟩

theorem put_eq_none_iff {fs : Fields β} {draft : fs.Draft} :
    fs.put s key d draft = none ↔ key ∉ fs.keys := by
  induction fs with
  | nil => simp [put, keys]
  | cons f rest ih =>
    simp only [put, keys, List.mem_append, not_or, RecordField.answers_eq]
    by_cases hkey : key ∈ f.names
    · simp only [List.contains_iff_mem.2 hkey, if_true, hkey, not_true_eq_false, false_and, iff_false]
      cases draft.1 <;> simp
    · simp only [List.contains_eq_mem, hkey, decide_false, Bool.false_eq_true, if_false,
        Option.map_eq_none_iff, ih, not_false_eq_true, true_and]

/-- A member of another name is not found. -/
theorem find?_concat_of_not_mem {names : List String} (h : l.text ∉ names) :
    (ms ++ [(l, d)]).find? (fun m => names.contains m.1.text) =
      ms.find? fun m => names.contains m.1.text := by
  simp [List.find?_append, h]

/-- A member that no field reads makes no difference. -/
theorem Tracks.pass {fs : Fields β} {draft : fs.Draft} (h : fs.Tracks s ms draft)
    (hkey : l.text ∉ fs.keys) : fs.Tracks s (ms ++ [(l, d)]) draft := by
  induction fs with
  | nil => trivial
  | cons f rest ih =>
    simp only [keys, List.mem_append, not_or] at hkey
    refine ⟨?_, ih h.2 hkey.2⟩
    rw [find?_concat_of_not_mem hkey.1]
    exact h.1

theorem Tracks.put {fs : Fields β} {draft draft' : fs.Draft} (hkeys : fs.keys.Nodup)
    (h : fs.Tracks s ms draft) (hput : fs.put s l.text d draft = some (.ok draft')) :
    fs.Tracks s (ms ++ [(l, d)]) draft' := by
  induction fs with
  | nil => cases hput
  | cons f rest ih =>
    obtain ⟨hhead, htail⟩ := h
    obtain ⟨-, hrest, hapart⟩ := List.nodup_append.1 hkeys
    rcases put_cons_cases hput with ⟨hanswers, hdraft, a, hdecode, rfl⟩ | ⟨hanswers, more, hmore, rfl⟩
    · -- It is the first member of this field, or it would have been refused.
      rw [RecordField.answers_eq] at hanswers
      have hkey : l.text ∈ f.names := List.contains_iff_mem.1 hanswers
      have hnone : ms.find? (fun m => f.names.contains m.1.text) = none := by
        cases hfind : ms.find? fun m => f.names.contains m.1.text with
        | none => rfl
        | some m =>
          rw [hfind] at hhead
          obtain ⟨a, ha, -⟩ := hhead
          rw [hdraft] at ha
          cases ha
      have hfind : (ms ++ [(l, d)]).find? (fun m => f.names.contains m.1.text) = some (l, d) := by
        rw [List.find?_append, hnone]
        simp [hkey]
      refine ⟨?_, htail.pass fun hmem => hapart _ hkey _ hmem rfl⟩
      rw [hfind]
      exact ⟨a, rfl, hdecode⟩
    · rw [RecordField.answers_eq] at hanswers
      have hkey : l.text ∉ f.names := by simpa using hanswers
      refine ⟨?_, ih hrest htail hmore⟩
      rw [find?_concat_of_not_mem hkey]
      exact hhead

theorem Tracks.readMembers {fs : Fields β} {draft draft' : fs.Draft}
    {rest : List (Literal × Document)} (hkeys : fs.keys.Nodup) (h : fs.Tracks s ms draft)
    (hread : fs.readMembers s draft rest = .ok draft') : fs.Tracks s (ms ++ rest) draft' := by
  induction rest generalizing ms draft with
  | nil =>
    cases hread
    rwa [List.append_nil]
  | cons m rest ih =>
    obtain ⟨l, d⟩ := m
    obtain ⟨key, hkey, hread⟩ := readMembers_cons_cases hread
    obtain rfl := Document.text_of_literal hkey
    rw [List.append_cons]
    rcases hread with ⟨next, hput, hread⟩ | ⟨hput, hread⟩
    · exact ih (h.put hkeys hput) hread
    · exact ih (h.pass (put_eq_none_iff.1 hput)) hread

/-- A record is drawn from a tree that has the members for its parts. -/
theorem Tracks.drawn {fs : Fields β} {draft : fs.Draft} {b : β} (h : fs.Tracks s ms draft)
    (hfinish : fs.finish draft = .ok b)
    (hd : ∀ names place, d.part? names place =
      (ms.find? fun m => names.contains m.1.text).map Prod.snd) (place : Nat) :
    fs.Drawn s d place b := by
  induction fs generalizing place with
  | nil => trivial
  | cons f rest ih =>
    obtain ⟨hhead, htail⟩ := h
    obtain ⟨a, b⟩ := b
    obtain ⟨hor, hrest⟩ := eq_of_finish_cons hfinish
    refine ⟨?_, ih htail hrest (place + 1)⟩
    rw [RecordField.Drawn, hd]
    cases hfind : ms.find? fun m => f.names.contains m.1.text with
    | some m =>
      rw [hfind] at hhead
      obtain ⟨a', hdraft, hdecode⟩ := hhead
      rw [hdraft] at hor
      cases hor
      exact hdecode
    | none =>
      rw [hfind] at hhead
      rw [hhead, Option.none_or] at hor
      exact Or.inl hor

/-! ## Parts of an array -/

theorem drawn_of_readItems {expected : String} {closing : Closing} {fs : Fields β} {place : Nat}
    {items left : List Document} {b : β}
    (h : readItems expected closing fs s place (items.drop place) = .ok (b, left)) :
    fs.Drawn s (.arr items closing) place b := by
  induction fs generalizing place with
  | nil => trivial
  | cons f rest ih =>
    obtain ⟨a, b⟩ := b
    cases hdrop : items.drop place with
    | cons d ds =>
      have hplace : items[place]? = some d := by
        rw [← Nat.add_zero place, ← List.getElem?_drop, hdrop]
        rfl
      have hnext : ds = items.drop (place + 1) := by
        rw [← List.drop_drop, hdrop]
        rfl
      rw [hdrop] at h
      obtain ⟨hdecode, hrest⟩ := eq_of_readItems_cons h
      refine ⟨?_, ih (hnext ▸ hrest)⟩
      simpa only [RecordField.Drawn, Document.part?, hplace] using hdecode
    | nil =>
      have hlength : items.length ≤ place := List.drop_eq_nil_iff.1 hdrop
      have hplace : items[place]? = none := List.getElem?_eq_none_iff.2 hlength
      have hnext : items.drop (place + 1) = [] := List.drop_eq_nil_iff.2 (Nat.le_succ_of_le hlength)
      rw [hdrop] at h
      obtain ⟨hshort, hrest⟩ := eq_of_readItems_nil h
      refine ⟨?_, ih (hnext.symm ▸ hrest)⟩
      simpa only [RecordField.Drawn, Document.part?, hplace] using Or.inr hshort

/-! ## Records -/

/-- The parts of a record that was read are drawn from the tree it was read from. -/
theorem drawn_of_decode {fs : Fields β} (hkeys : fs.keys.Nodup) {name : String} {b : β}
    (h : fs.decode name s d = .ok b) : ∃ inner, fs.Drawn inner d 0 b ∧ (s.enter = .ok s → inner = s) := by
  cases d with
  | obj ms closing =>
    obtain ⟨inner, draft, hinner, hread, -, hfinish⟩ := exists_of_decode_obj h
    have htracks : fs.Tracks inner ms draft := (tracks_blank fs).readMembers hkeys hread
    refine ⟨inner, htracks.drawn hfinish (fun _ _ => rfl) 0, fun hs => ?_⟩
    rw [hs] at hinner
    exact (Except.ok.inj hinner).symm
  | arr items closing =>
    obtain ⟨inner, left, hinner, hread⟩ := exists_of_decode_arr h
    refine ⟨inner, drawn_of_readItems (by simpa using hread), fun hs => ?_⟩
    rw [hs] at hinner
    exact (Except.ok.inj hinner).symm
  | scalar text plain tag =>
    -- A bare word that is empty is read as a record of which nothing is given.
    unfold decode at h
    split at h
    · next heq => cases heq
    · next heq => cases heq
    · exact ⟨s, (tracks_blank fs).drawn h (fun _ _ => rfl) 0, fun _ => rfl⟩
    · cases h
  | _ => cases h

end Fields

/-! ## Records that keep what they read -/

namespace RecordField

variable {α : Type}

/-- A field that keeps its values, whatever they were read from. -/
structure Retentive (f : RecordField α) : Prop extends f.Faithful where
  retentive : f.codec.Retentive

theorem retentive_withDefault (name : String) {c : Codec α} (hc : c.Retentive) {default : α}
    (hdefault : c.Keeps default) : (withDefault name c default).Retentive :=
  ⟨faithful_withDefault name hc.faithful hdefault, hc⟩

theorem Retentive.alsoNamed {f : RecordField α} (hf : f.Retentive) (name : String) :
    (f.alsoNamed name).Retentive :=
  ⟨hf.toFaithful.alsoNamed name, hf.retentive⟩

end RecordField

namespace Fields

variable {β : Type} {s : Source} {d : Document}

/-- Every field keeps its values, whatever they were read from. -/
def Retentive : {β : Type} → Fields β → Prop
  | _, .nil => True
  | _, .cons f rest => f.Retentive ∧ rest.Retentive

theorem Retentive.faithful {fs : Fields β} (h : fs.Retentive) : fs.Faithful := by
  induction fs with
  | nil => trivial
  | cons f rest ih => exact ⟨h.1.toFaithful, ih h.2⟩

theorem kept_of_drawn {fs : Fields β} (hfs : fs.Retentive) {place : Nat} {b : β}
    (h : fs.Drawn s d place b) : fs.Kept b := by
  induction fs generalizing place with
  | nil => trivial
  | cons f rest ih =>
    obtain ⟨a, b⟩ := b
    obtain ⟨hhead, htail⟩ := h
    refine ⟨?_, ih hfs.2 htail⟩
    unfold RecordField.Drawn at hhead
    split at hhead
    · next e _ => exact hfs.1.retentive s e a hhead
    · exact hhead.elim (hfs.1.absent a) (hfs.1.short a)

end Fields

theorem Codec.retentive_record {α β : Type} {fs : Fields β} {name : String} {make : β → α} {parts : α → β}
    (hfs : fs.Retentive) (hkeys : fs.keys.Nodup) (hclear : fs.isClear = true)
    (hmake : ∀ a, make (parts a) = a) (hparts : ∀ b, parts (make b) = b) :
    (fs.codec name make parts).Retentive := by
  intro s d a h
  obtain ⟨b, hdecode, rfl⟩ := exists_of_map_eq_ok h
  obtain ⟨inner, hdrawn, -⟩ := Fields.drawn_of_decode hkeys hdecode
  refine keeps_record hfs.faithful hclear hmake ?_
  rw [hparts]
  exact Fields.kept_of_drawn hfs hdrawn

end TaskSwarm
