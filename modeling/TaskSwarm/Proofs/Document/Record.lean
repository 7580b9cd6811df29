/-
What a record that was read says about the members it was read from.

The parts of a record are read from members that their fields answer to, or are
what the fields take when they are left out (`reads_of_decode`). If the members
are those that a record was written as, each part is read from what the same part
was written as (`echo_of_reads`): `Echo` puts two records side by side, field by
field, and says this of each. How a value gets from the writer to the reader is
left open as a relation between values and trees.

What one step of the reader can do is said first (`put_cons_cases`,
`readMembers_cons_cases`, `eq_of_readItems_cons`), so that no proof about records
has to open the reader again.
-/
import TaskSwarm.Document.Codec

set_option autoImplicit false

namespace TaskSwarm

/-! ## Steps that may fail -/

section

variable {ε α β : Type} {r : Except ε α} {b : β}

/-- A step that follows another one succeeds only if both do. -/
theorem exists_of_bind_eq_ok {f : α → Except ε β} (h : r >>= f = .ok b) :
    ∃ a, r = .ok a ∧ f a = .ok b := by
  cases r with
  | error e => cases h
  | ok a => exact ⟨a, rfl, h⟩

theorem exists_of_map_eq_ok {f : α → β} (h : r.map f = .ok b) : ∃ a, r = .ok a ∧ b = f a := by
  cases r with
  | error e => cases h
  | ok a =>
    cases h
    exact ⟨a, rfl, rfl⟩

end

/-! ## What a reader did -/

namespace Fields

variable {α β : Type} {f : RecordField α} {rest : Fields β} {s : Source}

/-- A member that is taken in goes to the first field that answers to its name, once. -/
theorem put_cons_cases {key : String} {d : Document} {draft draft' : (cons f rest).Draft}
    (h : (cons f rest).put s key d draft = some (.ok draft')) :
    (f.answers key = true ∧ draft.1 = none ∧
        ∃ a, f.codec.decode s d = .ok a ∧ draft' = (some a, draft.2)) ∨
      (f.answers key = false ∧
        ∃ more, rest.put s key d draft.2 = some (.ok more) ∧ draft' = (draft.1, more)) := by
  simp only [put] at h
  split at h
  · next hanswers =>
    split at h
    · cases h
    · next hdraft =>
      exact Or.inl ⟨hanswers, hdraft, exists_of_map_eq_ok (Option.some.inj h)⟩
  · next hanswers =>
    obtain ⟨r, hr, h⟩ := Option.map_eq_some_iff.1 h
    obtain ⟨more, rfl, hmore⟩ := exists_of_map_eq_ok h
    exact Or.inr ⟨eq_false_of_ne_true hanswers, more, hr, hmore⟩

/-- A member is taken in by a field, or no field goes by its name and it is passed over. -/
theorem readMembers_cons_cases {fs : Fields β} {l : Literal} {d : Document}
    {ms : List (Literal × Document)} {draft draft' : fs.Draft}
    (h : fs.readMembers s draft ((l, d) :: ms) = .ok draft') :
    ∃ key, Document.literal l = .ok key ∧
      ((∃ next, fs.put s key d draft = some (.ok next) ∧ fs.readMembers s next ms = .ok draft') ∨
        (fs.put s key d draft = none ∧ fs.readMembers s draft ms = .ok draft')) := by
  obtain ⟨key, hkey, h⟩ := exists_of_bind_eq_ok h
  refine ⟨key, hkey, ?_⟩
  cases hput : fs.put s key d draft with
  | some r =>
    rw [hput] at h
    obtain ⟨next, rfl, h⟩ := exists_of_bind_eq_ok h
    exact Or.inl ⟨next, rfl, h⟩
  | none =>
    -- A text is read past the member, which says nothing about the rest.
    rw [hput] at h
    refine Or.inr ⟨rfl, ?_⟩
    cases s with
    | text levels =>
      obtain ⟨_, -, h⟩ := exists_of_bind_eq_ok h
      exact h
    | _ => exact h

/-- A part is what was read of it, or what its field takes for want of a member. -/
theorem eq_of_finish_cons {draft : (cons f rest).Draft} {a : α} {b : β}
    (h : (cons f rest).finish draft = .ok (a, b)) :
    Option.or draft.1 f.absent = some a ∧ rest.finish draft.2 = .ok b := by
  simp only [finish] at h
  split at h
  · next a' hor =>
    obtain ⟨b', hrest, heq⟩ := exists_of_map_eq_ok h
    cases heq
    exact ⟨hor, hrest⟩
  · cases h

/-- The first item is read as the first part. -/
theorem eq_of_readItems_cons {expected : String} {closing : Closing} {place : Nat} {d : Document}
    {ds left : List Document} {a : α} {b : β}
    (h : readItems expected closing (cons f rest) s place (d :: ds) = .ok ((a, b), left)) :
    f.codec.decode s d = .ok a ∧
      readItems expected closing rest s (place + 1) ds = .ok (b, left) := by
  obtain ⟨a', hdecode, h⟩ := exists_of_bind_eq_ok h
  obtain ⟨⟨b', left'⟩, hrest, h⟩ := exists_of_bind_eq_ok h
  cases h
  exact ⟨hdecode, hrest⟩

/-- Without items, each part is what its field takes where an array ends before it. -/
theorem eq_of_readItems_nil {expected : String} {closing : Closing} {place : Nat}
    {left : List Document} {a : α} {b : β}
    (h : readItems expected closing (cons f rest) s place [] = .ok ((a, b), left)) :
    f.short = some a ∧ readItems expected closing rest s (place + 1) [] = .ok (b, left) := by
  obtain ⟨_, -, h⟩ := exists_of_bind_eq_ok h
  split at h
  · cases h
  · next a' hshort =>
    obtain ⟨⟨b', left'⟩, hrest, h⟩ := exists_of_bind_eq_ok h
    cases h
    exact ⟨hshort, hrest⟩

/-- A record that was read from an object was read from all of its members, to its end. -/
theorem exists_of_decode_obj {fs : Fields β} {name : String} {ms : List (Literal × Document)}
    {closing : Closing} {b : β} (h : fs.decode name s (.obj ms closing) = .ok b) :
    ∃ inner draft, s.enter = .ok inner ∧ fs.readMembers inner fs.blank ms = .ok draft ∧
      Document.endMembers closing = .ok () ∧ fs.finish draft = .ok b := by
  obtain ⟨inner, hinner, h⟩ := exists_of_bind_eq_ok h
  obtain ⟨draft, hread, h⟩ := exists_of_bind_eq_ok h
  obtain ⟨_, hclosing, hfinish⟩ := exists_of_bind_eq_ok h
  exact ⟨inner, draft, hinner, hread, hclosing, hfinish⟩

theorem exists_of_decode_arr {fs : Fields β} {name : String} {items : List Document}
    {closing : Closing} {b : β} (h : fs.decode name s (.arr items closing) = .ok b) :
    ∃ inner left, s.enter = .ok inner ∧
      readItems (fs.lengthText name) closing fs inner 0 items = .ok (b, left) := by
  obtain ⟨inner, hinner, h⟩ := exists_of_bind_eq_ok h
  obtain ⟨⟨b', left⟩, hread, h⟩ := exists_of_bind_eq_ok h
  obtain ⟨_, -, h⟩ := exists_of_bind_eq_ok h
  cases h
  exact ⟨inner, left, hinner, hread⟩

end Fields

/-! ## Parts and members -/

/-- A part that was read from a member. -/
def RecordField.Reads {α : Type} (f : RecordField α) (s : Source) (ms : List (Literal × Document))
    (a : α) : Prop :=
  ∃ l d key, (l, d) ∈ ms ∧ Document.literal l = .ok key ∧ f.answers key = true ∧
    f.codec.decode s d = .ok a

/-- A field without other names is read under its own. -/
theorem RecordField.eq_of_answers_required {α : Type} {name key : String} {c : Codec α}
    (h : (RecordField.required name c).answers key = true) : key = name := by
  obtain hown | hother := Bool.or_eq_true_iff.1 h
  · exact of_decide_eq_true hown
  · cases hother

namespace Fields

variable {β : Type} {s : Source} {ms : List (Literal × Document)}

/-- Every part was read from a member, or left out. -/
def Reads (s : Source) (ms : List (Literal × Document)) : {β : Type} → Fields β → β → Prop
  | _, .nil, _ => True
  | _, .cons f rest, (a, b) => (f.Reads s ms a ∨ f.absent = some a) ∧ rest.Reads s ms b

/-- Every part there is so far was read from a member. -/
def Drafts (s : Source) (ms : List (Literal × Document)) : {β : Type} → (fs : Fields β) → fs.Draft → Prop
  | _, .nil, _ => True
  | _, .cons f rest, draft => (∀ a, draft.1 = some a → f.Reads s ms a) ∧ rest.Drafts s ms draft.2

theorem drafts_blank (fs : Fields β) : fs.Drafts s ms fs.blank := by
  induction fs with
  | nil => trivial
  | cons f rest ih => exact ⟨nofun, ih⟩

theorem Drafts.put {fs : Fields β} {draft draft' : fs.Draft} {l : Literal} {d : Document}
    {key : String} (h : fs.Drafts s ms draft) (hmem : (l, d) ∈ ms)
    (hkey : Document.literal l = .ok key) (hput : fs.put s key d draft = some (.ok draft')) :
    fs.Drafts s ms draft' := by
  induction fs with
  | nil => cases hput
  | cons f rest ih =>
    obtain ⟨hhead, htail⟩ := h
    rcases put_cons_cases hput with ⟨hanswers, -, a, hdecode, rfl⟩ | ⟨-, more, hmore, rfl⟩
    · refine ⟨?_, htail⟩
      rintro a' ⟨⟩
      exact ⟨l, d, key, hmem, hkey, hanswers, hdecode⟩
    · exact ⟨hhead, ih htail hmore⟩

theorem Drafts.readMembers {fs : Fields β} {draft draft' : fs.Draft}
    {rest : List (Literal × Document)} (h : fs.Drafts s ms draft) (hsub : rest ⊆ ms)
    (hread : fs.readMembers s draft rest = .ok draft') : fs.Drafts s ms draft' := by
  induction rest generalizing draft with
  | nil =>
    cases hread
    exact h
  | cons m rest ih =>
    obtain ⟨l, d⟩ := m
    have hmem : (l, d) ∈ ms := hsub List.mem_cons_self
    have hsub : rest ⊆ ms := fun x hx => hsub (List.mem_cons_of_mem _ hx)
    obtain ⟨key, hkey, ⟨next, hput, hread⟩ | ⟨-, hread⟩⟩ := readMembers_cons_cases hread
    · exact ih (h.put hmem hkey hput) hsub hread
    · exact ih h hsub hread

theorem Drafts.finish {fs : Fields β} {draft : fs.Draft} {b : β} (h : fs.Drafts s ms draft)
    (hfinish : fs.finish draft = .ok b) : fs.Reads s ms b := by
  induction fs with
  | nil => trivial
  | cons f rest ih =>
    obtain ⟨hhead, htail⟩ := h
    obtain ⟨hor, hrest⟩ := eq_of_finish_cons hfinish
    refine ⟨?_, ih htail hrest⟩
    rcases Option.or_eq_some_iff.1 hor with hdraft | ⟨-, habsent⟩
    · exact Or.inl (hhead _ hdraft)
    · exact Or.inr habsent

/-- A record that was read from an object was read from its members. -/
theorem reads_of_decode {fs : Fields β} {name : String} {closing : Closing} {b : β}
    (h : fs.decode name s (.obj ms closing) = .ok b) :
    ∃ inner, s.enter = .ok inner ∧ fs.Reads inner ms b := by
  obtain ⟨inner, draft, hinner, hread, -, hfinish⟩ := exists_of_decode_obj h
  have hdrafts : fs.Drafts inner ms draft := (drafts_blank fs).readMembers (fun _ hx => hx) hread
  exact ⟨inner, hinner, hdrafts.finish hfinish⟩

/-! ## The record that was written and the record that was read -/

/-- The names of the fields. -/
def names : {β : Type} → Fields β → List String
  | _, .nil => []
  | _, .cons f rest => f.name :: rest.names

/-- Whether every field has one name, and no other field has the same one. -/
def isPlain : {β : Type} → Fields β → Bool
  | _, .nil => true
  | _, .cons f rest => f.aliases.isEmpty && !rest.names.contains f.name && rest.isPlain

/-- Two records, every part of the second read from what `view` makes of that part of the first. -/
def Echo (s : Source) (view : Json → Document → Prop) : {β : Type} → Fields β → β → β → Prop
  | _, .nil, _, _ => True
  | _, .cons f rest, (a, as), (b, bs) =>
    ((∃ d, view (f.codec.encode a) d ∧ f.codec.decode s d = .ok b) ∨ f.absent = some b) ∧
      rest.Echo s view as bs

theorem mem_names_of_mem_members {fs : Fields β} {a : β} {k : String} {v : Json}
    (h : (k, v) ∈ fs.members a) : k ∈ fs.names := by
  induction fs with
  | nil => cases h
  | cons f rest ih =>
    obtain ⟨a, as⟩ := a
    simp only [members] at h
    split at h
    · exact List.mem_cons_of_mem _ (ih h)
    · rcases List.mem_cons.1 h with h | h
      · cases h
        exact List.mem_cons_self
      · exact List.mem_cons_of_mem _ (ih h)

/-- What is read from the members of a record echoes it. -/
theorem echo_of_reads {fs : Fields β} (hplain : fs.isPlain = true) {view : Json → Document → Prop}
    {a b : β} (hread : fs.Reads s ms b)
    (hms : ∀ l d, (l, d) ∈ ms → ∀ k ∈ fs.names, Document.literal l = .ok k →
      ∃ v, (k, v) ∈ fs.members a ∧ view v d) : fs.Echo s view a b := by
  induction fs with
  | nil => trivial
  | cons f rest ih =>
    obtain ⟨a, as⟩ := a
    obtain ⟨b, bs⟩ := b
    obtain ⟨hhead, htail⟩ := hread
    simp only [isPlain, Bool.and_eq_true, Bool.not_eq_true', List.isEmpty_iff,
      List.contains_eq_mem, decide_eq_false_iff_not] at hplain
    obtain ⟨⟨haliases, hname⟩, hplain⟩ := hplain
    refine ⟨?_, ih hplain htail ?_⟩
    · rcases hhead with ⟨l, d, key, hmem, hkey, hanswers, hdecode⟩ | habsent
      · have hkeyname : key = f.name := by simpa [RecordField.answers, haliases] using hanswers
        subst hkeyname
        obtain ⟨v, hv, hview⟩ := hms l d hmem _ List.mem_cons_self hkey
        simp only [members] at hv
        split at hv
        · exact absurd (mem_names_of_mem_members hv) hname
        · rcases List.mem_cons.1 hv with hv | hv
          · cases hv
            exact Or.inl ⟨d, hview, hdecode⟩
          · exact absurd (mem_names_of_mem_members hv) hname
      · exact Or.inr habsent
    · intro l d hmem k hk hkey
      obtain ⟨v, hv, hview⟩ := hms l d hmem k (List.mem_cons_of_mem _ hk) hkey
      refine ⟨v, ?_, hview⟩
      simp only [members] at hv
      split at hv
      · exact hv
      · rcases List.mem_cons.1 hv with hv | hv
        · cases hv
          exact absurd hk hname
        · exact hv

end Fields

end TaskSwarm
