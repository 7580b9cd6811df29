/-
What was read is read again.

A codec keeps a value if what the value is written as is read as that value,
wherever and in whatever order it is carried (`Codec.Keeps`). It is faithful if
it keeps everything it reads (`Codec.Faithful`): a value may have come from an
array, from another name of a field or from nothing at all, but once it is there
it survives. Each way of building a codec from others keeps what they keep. What
settings are made of keeps even what it reads of bare words (`Codec.Retentive`).
-/
import TaskSwarm.Document.Variant
import TaskSwarm.Proofs.Document.Conveyed

set_option autoImplicit false

namespace TaskSwarm

namespace Codec

variable {α β : Type}

/-- What a value is written as is read as that value. -/
structure Keeps (c : Codec α) (a : α) : Prop where
  distinct : (c.encode a).Distinct
  reads : ∀ s d, Conveys s (c.encode a) d → c.decode s d = .ok a

/-- Whatever is read is kept. -/
def Faithful (c : Codec α) : Prop :=
  ∀ s d a, d.Wordless → c.decode s d = .ok a → c.Keeps a

/-- Whatever is read is kept, be it of bare words. -/
def Retentive (c : Codec α) : Prop :=
  ∀ s d a, c.decode s d = .ok a → c.Keeps a

theorem Retentive.faithful {c : Codec α} (hc : c.Retentive) : c.Faithful :=
  fun s d a _ h => hc s d a h

/-- Nothing but null is read as something that is written as null. -/
def Solid (c : Codec α) : Prop :=
  ∀ s d a, d.Wordless → c.decode s d = .ok a → c.encode a = .null → d = .null

theorem solid_of_ne_null {c : Codec α} (h : ∀ a, c.encode a ≠ .null) : c.Solid :=
  fun _ _ a _ _ hnull => absurd hnull (h a)

/-! ## Scalars -/

theorem keeps_textAs (expected a : String) : (textAs expected).Keeps a where
  distinct := trivial
  reads s d h := by
    cases h
    rfl

theorem retentive_textAs (expected : String) : (textAs expected).Retentive :=
  fun _ _ a _ => keeps_textAs expected a

theorem faithful_textAs (expected : String) : (textAs expected).Faithful :=
  (retentive_textAs expected).faithful

theorem solid_textAs (expected : String) : (textAs expected).Solid :=
  solid_of_ne_null nofun

theorem keeps_bool (a : Bool) : bool.Keeps a where
  distinct := trivial
  reads s d h := by
    cases h
    rfl

theorem faithful_bool : bool.Faithful := fun _ _ a _ _ => keeps_bool a

theorem keeps_unsigned {bound a : Nat} (expected : String) (ha : a < bound) :
    (unsigned bound expected).Keeps a where
  distinct := trivial
  reads s d h := by
    cases h
    have hrange : 0 ≤ (a : Int) ∧ (a : Int) < bound := ⟨Int.natCast_nonneg a, Int.ofNat_lt.2 ha⟩
    simp [unsigned, hrange]

theorem retentive_unsigned (bound : Nat) (expected : String) :
    (unsigned bound expected).Retentive := by
  intro s d a h
  refine keeps_unsigned expected ?_
  unfold unsigned at h
  simp only at h
  split at h
  · split at h
    · next hrange =>
      cases h
      omega
    · cases h
  · split at h
    · split at h
      · next hlt =>
        cases h
        exact hlt
      · cases h
    · cases h
  · cases h

theorem faithful_unsigned (bound : Nat) (expected : String) :
    (unsigned bound expected).Faithful :=
  (retentive_unsigned bound expected).faithful

theorem solid_unsigned (bound : Nat) (expected : String) : (unsigned bound expected).Solid :=
  solid_of_ne_null nofun

theorem keeps_int64 (a : Int64) : int64.Keeps a where
  distinct := trivial
  reads s d h := by
    cases h
    have hle := a.le_toInt
    have hlt := a.toInt_lt
    have hrange : -0x8000000000000000 ≤ a.toInt ∧ a.toInt < 0x8000000000000000 := by omega
    simp [int64, narrow, hrange]

theorem retentive_int64 : int64.Retentive := fun _ _ a _ => keeps_int64 a

theorem faithful_int64 : int64.Faithful := retentive_int64.faithful

theorem solid_int64 : int64.Solid := solid_of_ne_null nofun

theorem keeps_float (a : Float) : float.Keeps a where
  distinct := trivial
  reads s d h := by
    cases h
    rfl

theorem retentive_float : float.Retentive := fun _ _ a _ => keeps_float a

theorem faithful_float : float.Faithful := retentive_float.faithful

theorem solid_float : float.Solid := solid_of_ne_null nofun

theorem keeps_json {a : Json} (ha : a.Ordered) : json.Keeps a where
  distinct := ha.distinct
  reads _ _ h := toJson_of_conveys h ha

theorem faithful_json : json.Faithful :=
  fun _ d _ _ h => keeps_json (Document.ordered_of_toJson d h)

theorem solid_json : json.Solid := by
  rintro s d a hd h rfl
  exact Document.eq_null_of_toJson hd h

/-! ## Values that may be missing -/

theorem keeps_none (c : Codec α) : c.option.Keeps none where
  distinct := trivial
  reads s d h := by
    cases h
    rfl

/-- A tree that is not null and has no bare words holds what the codec finds in it. -/
theorem decode_option {c : Codec α} {s : Source} {d : Document} (hd : d.Wordless)
    (hnull : d ≠ .null) : c.option.decode s d = (c.decode s d).map some := by
  cases d with
  | null => exact absurd rfl hnull
  | scalar text plain tag => exact hd.elim
  | _ => rfl

theorem decode_option_of_conveys (c : Codec α) {s : Source} {j : Json} {d : Document}
    (h : Conveys s j d) (hnull : j ≠ .null) : c.option.decode s d = (c.decode s d).map some := by
  cases h with
  | null => exact absurd rfl hnull
  | _ => rfl

theorem Keeps.some {c : Codec α} {a : α} (h : c.Keeps a) (hnull : c.encode a ≠ .null) :
    c.option.Keeps (some a) where
  distinct := h.distinct
  reads s d hconveys := by
    rw [decode_option_of_conveys c hconveys hnull, h.reads s d hconveys]
    rfl

theorem Faithful.option {c : Codec α} (hc : c.Faithful) (hsolid : c.Solid) :
    c.option.Faithful := by
  intro s d a hd h
  by_cases hnull : d = .null
  · subst hnull
    cases h
    exact keeps_none c
  · rw [decode_option hd hnull] at h
    obtain ⟨a, hdecode, rfl⟩ := exists_of_map_eq_ok h
    exact (hc s d a hd hdecode).some fun hencode => hnull (hsolid s d a hd hdecode hencode)

/-- A value that is not written as null is not taken for a missing one. -/
theorem Retentive.option {c : Codec α} (hc : c.Retentive) (hnull : ∀ a, c.encode a ≠ .null) :
    c.option.Retentive := by
  have hsome : ∀ {s d} {o : Option α}, (c.decode s d).map some = .ok o → c.option.Keeps o := by
    intro s d o h
    obtain ⟨a, hdecode, rfl⟩ := exists_of_map_eq_ok h
    exact (hc s d a hdecode).some (hnull a)
  intro s d o h
  unfold Codec.option at h
  simp only at h
  split at h
  · cases h
    exact keeps_none c
  · split at h
    · cases h
      exact keeps_none c
    · cases h
  · split at h
    · cases h
      exact keeps_none c
    · exact hsome h
  · exact hsome h

/-! ## Values in a row -/

theorem exists_of_decodeItems {c : Codec α} {s : Source} {ds : List Document} {as : List α}
    (h : decodeItems c s ds = .ok as) : ∀ a ∈ as, ∃ d ∈ ds, c.decode s d = .ok a := by
  induction ds generalizing as with
  | nil =>
    cases h
    exact nofun
  | cons d ds ih =>
    obtain ⟨b, hdecode, h⟩ := exists_of_bind_eq_ok h
    obtain ⟨bs, hrest, h⟩ := exists_of_bind_eq_ok h
    cases h
    intro a ha
    rcases List.mem_cons.1 ha with rfl | ha
    · exact ⟨d, List.mem_cons_self, hdecode⟩
    · obtain ⟨e, he, hdecode⟩ := ih hrest a ha
      exact ⟨e, List.mem_cons_of_mem _ he, hdecode⟩

theorem decodeItems_of_conveys {c : Codec α} {s : Source} {as : List α} {ds : List Document}
    (has : ∀ a ∈ as, c.Keeps a) (h : ConveysItems s (as.map c.encode) ds) :
    decodeItems c s ds = .ok as := by
  induction as generalizing ds with
  | nil =>
    cases h
    rfl
  | cons a as ih =>
    cases h with
    | cons hhead htail =>
      have hdecode := (has a List.mem_cons_self).reads s _ hhead
      have hrest := ih (fun b hb => has b (List.mem_cons_of_mem _ hb)) htail
      simp [decodeItems, hdecode, hrest, bind, Except.bind, pure, Except.pure]

theorem keeps_list {c : Codec α} {as : List α} (has : ∀ a ∈ as, c.Keeps a) :
    c.list.Keeps as where
  distinct := by
    refine Json.namedItems_iff.2 fun j hj => ?_
    obtain ⟨a, ha, rfl⟩ := List.mem_map.1 hj
    exact (has a ha).distinct
  reads s d h := by
    cases h with
    | arr henter hitems =>
      have hdecode := decodeItems_of_conveys has hitems
      simp [list, henter, hdecode, Document.endItems, bind, Except.bind, pure, Except.pure]

theorem Faithful.list {c : Codec α} (hc : c.Faithful) : c.list.Faithful := by
  intro s d as hd h
  unfold Codec.list at h
  simp only at h
  split at h
  · next items closing =>
    obtain ⟨inner, -, h⟩ := exists_of_bind_eq_ok h
    obtain ⟨bs, hitems, h⟩ := exists_of_bind_eq_ok h
    obtain ⟨_, -, h⟩ := exists_of_bind_eq_ok h
    cases h
    refine keeps_list fun a ha => ?_
    obtain ⟨d, hmem, hdecode⟩ := exists_of_decodeItems hitems a ha
    exact hc inner d a (Document.wordlessItems_iff.1 hd d hmem) hdecode
  · exact hd.elim
  · cases h

/-! ## Values under names -/

theorem exists_of_decodeMembers {c : Codec α} {s : Source} {ds : List (Literal × Document)}
    {m n : SortedMap α} (h : decodeMembers c s m ds = .ok n) :
    ∀ e ∈ n.entries, e ∈ m.entries ∨ ∃ l d, (l, d) ∈ ds ∧ c.decode s d = .ok e.2 := by
  induction ds generalizing m with
  | nil =>
    cases h
    exact fun e he => Or.inl he
  | cons x ds ih =>
    obtain ⟨l, d⟩ := x
    obtain ⟨k, -, h⟩ := exists_of_bind_eq_ok h
    obtain ⟨a, hdecode, h⟩ := exists_of_bind_eq_ok h
    intro e he
    rcases ih h e he with hmem | ⟨l', d', hmem, hdecode'⟩
    · rcases mem_insertEntry hmem with rfl | hmem
      · exact Or.inr ⟨l, d, List.mem_cons_self, hdecode⟩
      · exact Or.inl hmem
    · exact Or.inr ⟨l', d', List.mem_cons_of_mem _ hmem, hdecode'⟩

theorem decodeMembers_of_conveys {c : Codec α} {s : Source} {es : List (String × α)}
    {ds : List (Literal × Document)} (hes : ∀ e ∈ es, c.Keeps e.2)
    (h : ConveysMembers s (es.map fun e => (e.1, c.encode e.2)) ds) (m : SortedMap α) :
    decodeMembers c s m ds = .ok (es.foldl (fun m e => m.insert e.1 e.2) m) := by
  induction es generalizing ds m with
  | nil =>
    cases h
    rfl
  | cons e es ih =>
    cases h with
    | cons hhead htail =>
      have hdecode := (hes e List.mem_cons_self).reads s _ hhead
      have hrest := ih (fun b hb => hes b (List.mem_cons_of_mem _ hb)) htail (m.insert e.1 e.2)
      simp [decodeMembers, literal_plain, hdecode, hrest, bind, Except.bind]

theorem keeps_map {c : Codec α} {m : SortedMap α} (hm : ∀ e ∈ m.entries, c.Keeps e.2) :
    c.map.Keeps m where
  distinct := by
    refine ⟨?_, Json.namedMembers_iff.2 fun j hj => ?_⟩
    · rw [List.map_map]
      exact m.nodup_keys
    · obtain ⟨e, he, rfl⟩ := List.mem_map.1 hj
      exact (hm e he).distinct
  reads s d h := by
    cases h with
    | obj henter hperm hmembers =>
      -- The members came in some order; put in that order, the entries are read one by one.
      obtain ⟨es, rfl, hes⟩ :=
        (congrFun₂ (List.eq_map_comp_perm fun e : String × α => (e.1, c.encode e.2)) _ _).mpr hperm
      have hdecode := decodeMembers_of_conveys (fun e he => hm e (hes.mem_iff.1 he)) hmembers .empty
      simp [Codec.map, henter, hdecode, Document.endMembers, m.foldl_insert_of_perm hes, bind,
        Except.bind, pure, Except.pure]

theorem Faithful.map {c : Codec α} (hc : c.Faithful) : c.map.Faithful := by
  intro s d m hd h
  unfold Codec.map at h
  simp only at h
  split at h
  · next members closing =>
    obtain ⟨inner, -, h⟩ := exists_of_bind_eq_ok h
    obtain ⟨n, hmembers, h⟩ := exists_of_bind_eq_ok h
    obtain ⟨_, -, h⟩ := exists_of_bind_eq_ok h
    cases h
    refine keeps_map fun e he => ?_
    rcases exists_of_decodeMembers hmembers e he with hnone | ⟨l, d, hmem, hdecode⟩
    · cases hnone
    · exact hc inner d e.2 (Document.wordlessMembers_iff.1 hd (l, d) hmem) hdecode
  · exact hd.elim
  · cases h

theorem Retentive.map {c : Codec α} (hc : c.Retentive) : c.map.Retentive := by
  intro s d m h
  unfold Codec.map at h
  simp only at h
  split at h
  · obtain ⟨inner, -, h⟩ := exists_of_bind_eq_ok h
    obtain ⟨n, hmembers, h⟩ := exists_of_bind_eq_ok h
    obtain ⟨_, -, h⟩ := exists_of_bind_eq_ok h
    cases h
    refine keeps_map fun e he => ?_
    rcases exists_of_decodeMembers hmembers e he with hnone | ⟨l, d, -, hdecode⟩
    · cases hnone
    · exact hc inner d e.2 hdecode
  · cases h
    exact keeps_map nofun
  · cases h

/-! ## One of several names -/

theorem lookup_of_mem {vs : List (String × α)} (hvs : (vs.map Prod.fst).Nodup) {n : String} {a : α}
    (h : (n, a) ∈ vs) : vs.lookup n = some a := by
  induction vs with
  | nil => cases h
  | cons v vs ih =>
    obtain ⟨m, b⟩ := v
    obtain ⟨hhead, hvs⟩ := List.nodup_cons.1 hvs
    rcases List.mem_cons.1 h with hfirst | hrest
    · cases hfirst
      exact List.lookup_cons_self
    · have hne : n ≠ m := by
        rintro rfl
        exact hhead (List.mem_map.2 ⟨(n, a), hrest, rfl⟩)
      rw [List.lookup_cons, beq_eq_false_iff_ne.2 hne]
      exact ih hvs hrest

theorem keeps_oneOf [DecidableEq α] {vs : List (String × α)} (hvs : (vs.map Prod.fst).Nodup) {a : α}
    (ha : a ∈ vs.map Prod.snd) : (oneOf vs).Keeps a where
  distinct := trivial
  reads s d h := by
    obtain ⟨v, hv, rfl⟩ := List.mem_map.1 ha
    have hfind : ∃ w, (vs.find? fun w => decide (w.2 = v.2)) = some w ∧ w ∈ vs ∧ w.2 = v.2 := by
      cases hw : vs.find? fun w => decide (w.2 = v.2) with
      | none =>
        have hnone := List.find?_eq_none.1 hw v hv
        simp at hnone
      | some w =>
        exact ⟨w, rfl, List.mem_of_find?_eq_some hw, by simpa using List.find?_some hw⟩
    obtain ⟨w, hfind, hw, heq⟩ := hfind
    have hencode : (oneOf vs).encode v.2 = .str w.1 := by simp [oneOf, hfind]
    rw [hencode] at h
    cases h
    have hlookup : vs.lookup w.1 = some v.2 := lookup_of_mem hvs (heq ▸ hw)
    simp [oneOf, pick, literal_plain, hlookup, bind, Except.bind]

theorem mem_of_pick {vs : List (String × α)} {n : String} {a : α} (h : pick vs n = .ok a) :
    a ∈ vs.map Prod.snd := by
  unfold pick at h
  split at h
  · next hlookup =>
    cases h
    obtain ⟨l₁, l₂, rfl, -⟩ := List.lookup_eq_some_iff.1 hlookup
    simp
  · cases h

theorem retentive_oneOf [DecidableEq α] {vs : List (String × α)} (hvs : (vs.map Prod.fst).Nodup) :
    (oneOf vs).Retentive := by
  intro s d a h
  refine keeps_oneOf hvs ?_
  unfold oneOf at h
  simp only at h
  split at h
  · -- Its name.
    obtain ⟨n, -, h⟩ := exists_of_bind_eq_ok h
    exact mem_of_pick h
  · -- A bare word that is marked with its name.
    obtain ⟨b, hpick, h⟩ := exists_of_bind_eq_ok h
    split at h
    · cases h
      exact mem_of_pick hpick
    · cases h
  · exact mem_of_pick h
  · -- An object of a text that has its name for a member.
    obtain ⟨_, -, h⟩ := exists_of_bind_eq_ok h
    split at h
    · cases h
    · obtain ⟨n, -, h⟩ := exists_of_bind_eq_ok h
      obtain ⟨b, hpick, h⟩ := exists_of_bind_eq_ok h
      obtain ⟨_, -, h⟩ := exists_of_bind_eq_ok h
      obtain ⟨_, -, h⟩ := exists_of_bind_eq_ok h
      cases h
      exact mem_of_pick hpick
  · cases h
  · -- An object in memory that has its name for its only member.
    split at h
    · obtain ⟨n, -, h⟩ := exists_of_bind_eq_ok h
      obtain ⟨b, hpick, h⟩ := exists_of_bind_eq_ok h
      obtain ⟨_, -, h⟩ := exists_of_bind_eq_ok h
      cases h
      exact mem_of_pick hpick
    · cases h
  · cases h
  · cases h
  · cases h

theorem faithful_oneOf [DecidableEq α] {vs : List (String × α)} (hvs : (vs.map Prod.fst).Nodup) :
    (oneOf vs).Faithful :=
  (retentive_oneOf hvs).faithful

end Codec

end TaskSwarm
