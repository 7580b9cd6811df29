/-
Maps from names, kept in the order of the names.

A node answers with its proposals, its peers and its settings in the order of
their names, however they came in, so the order belongs to the type: a map is
a list of entries with strictly increasing keys. Two maps with the same
look-ups are then equal (`ext_get?`), which is what makes every answer built
from one independent of the history behind it.

`get?_insert` and `get?_erase` say what each change does to the look-ups;
nothing else needs to unfold the list.
-/
set_option autoImplicit false

namespace TaskSwarm

/-! ## Sorted lists of entries -/

/-- Puts an entry at its place, replacing the one with the same key. -/
def insertEntry {α : Type} (k : String) (v : α) : List (String × α) → List (String × α)
  | [] => [(k, v)]
  | e :: rest =>
    if k < e.1 then (k, v) :: e :: rest
    else if k = e.1 then (k, v) :: rest
    else e :: insertEntry k v rest

/-- The value under a key. -/
def findEntry {α : Type} (k : String) : List (String × α) → Option α
  | [] => none
  | e :: rest => if k = e.1 then some e.2 else findEntry k rest

/-- Strictly increasing keys. -/
def SortedEntries {α : Type} (es : List (String × α)) : Prop :=
  es.Pairwise fun a b => a.1 < b.1

theorem mem_insertEntry {α : Type} {k : String} {v : α} {es : List (String × α)} {x : String × α}
    (h : x ∈ insertEntry k v es) : x = (k, v) ∨ x ∈ es := by
  induction es with
  | nil => simp [insertEntry] at h; exact Or.inl h
  | cons e rest ih =>
    simp only [insertEntry] at h
    split at h
    · simpa using h
    · split at h
      · rcases List.mem_cons.mp h with h | h
        · exact Or.inl h
        · exact Or.inr (List.mem_cons_of_mem _ h)
      · rcases List.mem_cons.mp h with h | h
        · exact Or.inr (h ▸ List.mem_cons_self)
        · rcases ih h with h | h
          · exact Or.inl h
          · exact Or.inr (List.mem_cons_of_mem _ h)

theorem SortedEntries.insertEntry {α : Type} {es : List (String × α)} (h : SortedEntries es)
    (k : String) (v : α) : SortedEntries (insertEntry k v es) := by
  induction es with
  | nil => exact List.pairwise_singleton _ _
  | cons e rest ih =>
    obtain ⟨hhead, htail⟩ := List.pairwise_cons.mp h
    simp only [TaskSwarm.insertEntry]
    split
    · next hlt =>
      refine List.pairwise_cons.mpr ⟨fun x hx => ?_, h⟩
      rcases List.mem_cons.mp hx with rfl | hx
      · exact hlt
      · exact String.lt_trans hlt (hhead x hx)
    · split
      · next heq =>
        exact List.pairwise_cons.mpr ⟨fun x hx => heq ▸ hhead x hx, htail⟩
      · next hnlt hne =>
        refine List.pairwise_cons.mpr ⟨fun x hx => ?_, ih htail⟩
        rcases mem_insertEntry hx with rfl | hx
        · show e.1 < k
          grind
        · exact hhead x hx

theorem SortedEntries.filter {α : Type} {es : List (String × α)} (h : SortedEntries es)
    (p : String × α → Bool) : SortedEntries (es.filter p) :=
  List.Pairwise.filter p h

theorem findEntry_insertEntry {α : Type} (k j : String) (v : α) (es : List (String × α)) :
    findEntry j (insertEntry k v es) = if j = k then some v else findEntry j es := by
  induction es with
  | nil => simp [insertEntry, findEntry]
  | cons e rest ih =>
    simp only [insertEntry]
    split
    · simp only [findEntry]
    · split
      · next heq => simp only [findEntry]; subst heq; split <;> rfl
      · simp only [findEntry, ih]
        by_cases hj : j = e.1
        · subst hj
          have : ¬ e.1 = k := fun hh => by simp_all
          simp [this]
        · simp [hj]

theorem findEntry_filter_ne {α : Type} (k j : String) (es : List (String × α)) :
    findEntry j (es.filter fun e => e.1 != k) = if j = k then none else findEntry j es := by
  induction es with
  | nil => simp [findEntry]
  | cons e rest ih =>
    by_cases he : e.1 = k
    · simp only [List.filter, he, bne_self_eq_false, ih, findEntry]
      split <;> rfl
    · have : (e.1 != k) = true := by simp [he]
      simp only [List.filter, this, findEntry, ih]
      by_cases hj : j = e.1
      · subst hj; simp [he]
      · simp [hj]

theorem findEntry_eq_some_iff {α : Type} {es : List (String × α)} (h : SortedEntries es)
    {k : String} {v : α} : findEntry k es = some v ↔ (k, v) ∈ es := by
  induction es with
  | nil => simp [findEntry]
  | cons e rest ih =>
    obtain ⟨hhead, htail⟩ := List.pairwise_cons.mp h
    simp only [findEntry, List.mem_cons]
    by_cases hk : k = e.1
    · subst hk
      constructor
      · intro hv
        simp only [if_true, Option.some.injEq] at hv
        exact Or.inl (by rw [← hv])
      · rintro (hv | hv)
        · have : e.2 = v := by rw [← hv]
          simp [this]
        · exact absurd (hhead _ hv) (String.lt_irrefl _)
    · simp only [hk, if_false, ih htail]
      constructor
      · exact Or.inr
      · rintro (hv | hv)
        · exact absurd (by rw [← hv]) hk
        · exact hv

/-- Sorted lists with the same look-ups are equal. -/
theorem SortedEntries.ext {α : Type} : ∀ {xs ys : List (String × α)}, SortedEntries xs →
    SortedEntries ys → (∀ k, findEntry k xs = findEntry k ys) → xs = ys
  | [], [], _, _, _ => rfl
  | [], y :: ys, _, _, h => by have := h y.1; simp [findEntry] at this
  | x :: xs, [], _, _, h => by have := h x.1; simp [findEntry] at this
  | x :: xs, y :: ys, hx, hy, h => by
    obtain ⟨hxh, hxt⟩ := List.pairwise_cons.mp hx
    obtain ⟨hyh, hyt⟩ := List.pairwise_cons.mp hy
    have hxy : (x.1, x.2) ∈ y :: ys := by
      rw [← findEntry_eq_some_iff hy, ← h]; simp [findEntry]
    have hyx : (y.1, y.2) ∈ x :: xs := by
      rw [← findEntry_eq_some_iff hx, h]; simp [findEntry]
    have heq : x = y := by
      rcases List.mem_cons.mp hxy with e | hm
      · exact e
      · rcases List.mem_cons.mp hyx with e | hm'
        · exact e.symm
        · exact absurd (String.lt_trans (hyh _ hm) (hxh _ hm')) (String.lt_irrefl _)
    subst heq
    congr 1
    refine SortedEntries.ext hxt hyt fun k => ?_
    have hk := h k
    simp only [findEntry] at hk
    split at hk
    · next e =>
      have hnone : ∀ {zs : List (String × α)}, (∀ z ∈ zs, x.1 < z.1) → findEntry k zs = none := by
        intro zs hz
        cases hf : findEntry k zs with
        | none => rfl
        | some v =>
          exfalso
          clear hk
          induction zs with
          | nil => simp [findEntry] at hf
          | cons z zs ih =>
            simp only [findEntry] at hf
            split at hf
            · next e' =>
              have hlt := hz z List.mem_cons_self
              rw [← e', ← e] at hlt
              exact String.lt_irrefl _ hlt
            · exact ih (fun z' hz' => hz z' (List.mem_cons_of_mem _ hz')) hf
      rw [hnone hxh, hnone hyh]
    · exact hk

/-! ## The map -/

/-- A map from names to `α`, listed in the order of the names. -/
@[ext]
structure SortedMap (α : Type) where
  entries : List (String × α)
  sorted : SortedEntries entries

namespace SortedMap

variable {α : Type}

instance [DecidableEq α] : DecidableEq (SortedMap α) := fun a b =>
  decidable_of_iff (a.entries = b.entries) ⟨SortedMap.ext, fun h => h ▸ rfl⟩

/-- The map without entries. -/
def empty : SortedMap α := ⟨[], List.Pairwise.nil⟩

instance : Inhabited (SortedMap α) := ⟨empty⟩

/-- The value under `k`. -/
def get? (m : SortedMap α) (k : String) : Option α := findEntry k m.entries

/-- Whether `k` has a value. -/
def contains (m : SortedMap α) (k : String) : Bool := (m.get? k).isSome

/-- The map with `v` under `k`, whatever stood there. -/
def insert (m : SortedMap α) (k : String) (v : α) : SortedMap α :=
  ⟨insertEntry k v m.entries, m.sorted.insertEntry k v⟩

/-- The map without a value under `k`. -/
def erase (m : SortedMap α) (k : String) : SortedMap α :=
  ⟨m.entries.filter fun e => e.1 != k, m.sorted.filter _⟩

/-- The keys, in increasing order. -/
def keys (m : SortedMap α) : List String := m.entries.map Prod.fst

/-- The values, in the order of their keys. -/
def values (m : SortedMap α) : List α := m.entries.map Prod.snd

/-- The number of entries. -/
def size (m : SortedMap α) : Nat := m.entries.length

/-- A map from entries in any order; of two with one key the later counts. -/
def ofList (es : List (String × α)) : SortedMap α :=
  es.foldl (fun m e => m.insert e.1 e.2) empty

/-! ## What each change does to the look-ups -/

@[simp] theorem get?_empty (k : String) : (empty : SortedMap α).get? k = none := rfl

theorem get?_insert (m : SortedMap α) (k j : String) (v : α) :
    (m.insert k v).get? j = if j = k then some v else m.get? j :=
  findEntry_insertEntry k j v m.entries

@[simp] theorem get?_insert_self (m : SortedMap α) (k : String) (v : α) :
    (m.insert k v).get? k = some v := by
  simp [get?_insert]

theorem get?_insert_of_ne (m : SortedMap α) {k j : String} (v : α) (h : j ≠ k) :
    (m.insert k v).get? j = m.get? j := by
  simp [get?_insert, h]

theorem get?_erase (m : SortedMap α) (k j : String) :
    (m.erase k).get? j = if j = k then none else m.get? j :=
  findEntry_filter_ne k j m.entries

/-- A map is known by its look-ups. -/
theorem ext_get? {m n : SortedMap α} (h : ∀ k, m.get? k = n.get? k) : m = n :=
  SortedMap.ext (m.sorted.ext n.sorted h)

theorem mem_entries_iff {m : SortedMap α} {k : String} {v : α} :
    (k, v) ∈ m.entries ↔ m.get? k = some v :=
  (findEntry_eq_some_iff m.sorted).symm

theorem pairwise_keys (m : SortedMap α) : m.keys.Pairwise (· < ·) :=
  List.pairwise_map.mpr m.sorted

theorem nodup_keys (m : SortedMap α) : m.keys.Nodup := by
  refine m.pairwise_keys.imp ?_
  rintro k _ hlt rfl
  exact String.lt_irrefl k hlt

theorem mem_keys_iff {m : SortedMap α} {k : String} : k ∈ m.keys ↔ ∃ v, m.get? k = some v := by
  simp only [keys, List.mem_map, Prod.exists]
  constructor
  · rintro ⟨a, b, hm, rfl⟩
    exact ⟨b, mem_entries_iff.mp hm⟩
  · rintro ⟨v, hv⟩
    exact ⟨k, v, mem_entries_iff.mpr hv, rfl⟩

end SortedMap

end TaskSwarm
