/-
Values whose members stand in one order.

What is taken in from outside has the members of every object in increasing
order of their names, each name once (`ordered_canonical`). Such a value is left
alone when its members are put in order again (`canonical_eq_self`), and there
is no other order it could have come in: members in any order are put into the
one list there is (`foldl_insertEntry_of_perm`).
-/
import TaskSwarm.Json.Value

set_option autoImplicit false

namespace TaskSwarm

/-! ## Putting members in order -/

section

variable {α : Type} {es fs : List (String × α)}

/-- A new name is put in without losing anything. -/
theorem perm_insertEntry {k : String} (v : α) (hk : k ∉ es.map Prod.fst) :
    (insertEntry k v es).Perm ((k, v) :: es) := by
  induction es with
  | nil => exact List.Perm.refl _
  | cons e es ih =>
    simp only [List.map_cons, List.mem_cons, not_or] at hk
    simp only [insertEntry]
    split
    · exact List.Perm.refl _
    · rw [if_neg hk.1]
      exact ((ih hk.2).cons e).trans (List.Perm.swap _ _ _)

/-- Names that are all different are put in order without losing anything. -/
theorem perm_foldl_insertEntry (h : ((fs ++ es).map Prod.fst).Nodup) :
    (fs.foldl (fun ms m => insertEntry m.1 m.2 ms) es).Perm (fs ++ es) := by
  induction fs generalizing es with
  | nil => exact List.Perm.refl _
  | cons f fs ih =>
    obtain ⟨k, v⟩ := f
    have hk : k ∉ es.map Prod.fst := by
      intro hmem
      have hnotin : k ∉ (fs ++ es).map Prod.fst := (List.nodup_cons.1 h).1
      rw [List.map_append] at hnotin
      exact hnotin (List.mem_append_right _ hmem)
    have hperm : (fs ++ insertEntry k v es).Perm ((k, v) :: fs ++ es) :=
      ((perm_insertEntry v hk).append_left fs).trans List.perm_middle
    have hnodup : ((fs ++ insertEntry k v es).map Prod.fst).Nodup :=
      (hperm.map Prod.fst).nodup_iff.2 h
    exact (ih hnodup).trans hperm

/-- Increasing names are all different. -/
theorem nodup_of_increasing {names : List String} (h : names.Pairwise (· < ·)) : names.Nodup := by
  refine List.Pairwise.imp ?_ h
  rintro a _ hlt rfl
  exact String.lt_irrefl a hlt

theorem sortedEntries_iff : SortedEntries es ↔ (es.map Prod.fst).Pairwise (· < ·) := by
  rw [List.pairwise_map]
  rfl

/-- Entries have one order only. -/
theorem SortedEntries.eq_of_perm (hes : SortedEntries es) (hfs : SortedEntries fs)
    (h : es.Perm fs) : es = fs :=
  h.eq_of_pairwise (fun _ _ _ _ hlt hgt => absurd (String.lt_trans hlt hgt) (String.lt_irrefl _))
    hes hfs

theorem SortedMap.entries_foldl_insert (es : List (String × α)) (m : SortedMap α) :
    (es.foldl (fun m e => m.insert e.1 e.2) m).entries =
      es.foldl (fun ms e => insertEntry e.1 e.2 ms) m.entries := by
  induction es generalizing m with
  | nil => rfl
  | cons e es ih => exact ih (m.insert e.1 e.2)

/-- A map is rebuilt from its entries in any order. -/
theorem SortedMap.foldl_insert_of_perm (m : SortedMap α) (h : es.Perm m.entries) :
    es.foldl (fun m e => m.insert e.1 e.2) .empty = m := by
  have hnodup : (es.map Prod.fst).Nodup :=
    (h.map Prod.fst).nodup_iff.2 m.nodup_keys
  have hperm : (es.foldl (fun ms e => insertEntry e.1 e.2 ms) []).Perm es := by
    have h := @perm_foldl_insertEntry α [] es (by rwa [List.append_nil])
    rwa [List.append_nil] at h
  have hentries := SortedMap.entries_foldl_insert es .empty
  refine SortedMap.ext (SortedEntries.eq_of_perm (SortedMap.sorted _) m.sorted ?_)
  rw [hentries]
  exact hperm.trans h

/-- Entries are put in the order they have, whatever order they came in. -/
theorem foldl_insertEntry_of_perm (hes : SortedEntries es) (h : fs.Perm es) :
    fs.foldl (fun ms m => insertEntry m.1 m.2 ms) [] = es := by
  have hmap := SortedMap.foldl_insert_of_perm ⟨es, hes⟩ h
  have hentries := SortedMap.entries_foldl_insert fs .empty
  rw [hmap] at hentries
  exact hentries.symm

end

namespace Json

/-! ## What holds of the names in every object -/

mutual

/-- Whether the names of the members of every object are such. -/
def Named (P : List String → Prop) : Json → Prop
  | .arr items => NamedItems P items
  | .obj members => P (members.map Prod.fst) ∧ NamedMembers P members
  | _ => True

/-- `Named` of each item. -/
def NamedItems (P : List String → Prop) : List Json → Prop
  | [] => True
  | x :: xs => x.Named P ∧ NamedItems P xs

/-- `Named` of the value of each member. -/
def NamedMembers (P : List String → Prop) : List (String × Json) → Prop
  | [] => True
  | (_, v) :: ms => v.Named P ∧ NamedMembers P ms

end

/-- The members of every object stand in increasing order. -/
def Ordered (j : Json) : Prop := j.Named (List.Pairwise (· < ·))

/-- No object has two members of one name. -/
def Distinct (j : Json) : Prop := j.Named List.Nodup

variable {P Q : List String → Prop}

theorem namedItems_iff {items : List Json} : NamedItems P items ↔ ∀ x ∈ items, x.Named P := by
  induction items with
  | nil => simp [NamedItems]
  | cons x xs ih => simp [NamedItems, ih]

theorem namedMembers_iff {members : List (String × Json)} :
    NamedMembers P members ↔ ∀ m ∈ members, m.2.Named P := by
  induction members with
  | nil => simp [NamedMembers]
  | cons m ms ih =>
    obtain ⟨k, v⟩ := m
    simp [NamedMembers, ih]

mutual

theorem Named.imp (h : ∀ names, P names → Q names) : (j : Json) → j.Named P → j.Named Q
  | .null, _ | .bool _, _ | .num _, _ | .str _, _ => trivial
  | .arr items, hj => NamedItems.imp h items hj
  | .obj members, hj => ⟨h _ hj.1, NamedMembers.imp h members hj.2⟩

theorem NamedItems.imp (h : ∀ names, P names → Q names) :
    (items : List Json) → NamedItems P items → NamedItems Q items
  | [], _ => trivial
  | x :: xs, hj => ⟨Named.imp h x hj.1, NamedItems.imp h xs hj.2⟩

theorem NamedMembers.imp (h : ∀ names, P names → Q names) :
    (members : List (String × Json)) → NamedMembers P members → NamedMembers Q members
  | [], _ => trivial
  | (_, v) :: ms, hj => ⟨Named.imp h v hj.1, NamedMembers.imp h ms hj.2⟩

end

theorem Ordered.distinct {j : Json} (h : j.Ordered) : j.Distinct :=
  Named.imp (fun _ => nodup_of_increasing) j h

/-! ## Values in order -/

/-- An object is in order if its members were, whatever order they came in. -/
theorem ordered_object {members : List (String × Json)} (h : ∀ m ∈ members, m.2.Ordered) :
    (object members).Ordered := by
  have hmem : ∀ (ms acc : List (String × Json)), (∀ m ∈ ms, m.2.Ordered) →
      (∀ m ∈ acc, m.2.Ordered) →
      ∀ m ∈ ms.foldl (fun ms m => insertEntry m.1 m.2 ms) acc, m.2.Ordered := by
    intro ms
    induction ms with
    | nil => exact fun acc _ hacc => hacc
    | cons m ms ih =>
      intro acc hms hacc
      refine ih _ (fun x hx => hms x (List.mem_cons_of_mem _ hx)) fun x hx => ?_
      rcases mem_insertEntry hx with rfl | hx
      · exact hms m List.mem_cons_self
      · exact hacc x hx
  have hsorted : SortedEntries (members.foldl (fun ms m => insertEntry m.1 m.2 ms) []) :=
    sorted_object_members members [] List.Pairwise.nil
  exact ⟨sortedEntries_iff.1 hsorted, namedMembers_iff.2 (hmem members [] h nofun)⟩

/-- An object in order is what its members are put together to, whatever order they came in. -/
theorem object_of_perm {members ms : List (String × Json)} (h : (Json.obj members).Ordered)
    (hms : ms.Perm members) : object ms = .obj members := by
  rw [object, foldl_insertEntry_of_perm (sortedEntries_iff.2 h.1) hms]

mutual

theorem ordered_canonical : (j : Json) → j.canonical.Ordered
  | .null | .bool _ | .num _ | .str _ => trivial
  | .arr items => namedItems_iff.2 (ordered_canonicalItems items)
  | .obj members => ordered_object (ordered_canonicalMembers members)

theorem ordered_canonicalItems : (items : List Json) → ∀ x ∈ canonicalItems items, x.Ordered
  | [] => nofun
  | x :: xs => by
    intro y hy
    rcases List.mem_cons.1 hy with rfl | hy
    · exact ordered_canonical x
    · exact ordered_canonicalItems xs y hy

theorem ordered_canonicalMembers :
    (members : List (String × Json)) → ∀ m ∈ canonicalMembers members, m.2.Ordered
  | [] => nofun
  | (k, v) :: ms => by
    intro m hm
    rcases List.mem_cons.1 hm with rfl | hm
    · exact ordered_canonical v
    · exact ordered_canonicalMembers ms m hm

end

mutual

/-- A value in order is left alone. -/
theorem canonical_eq_self : (j : Json) → j.Ordered → j.canonical = j
  | .null, _ | .bool _, _ | .num _, _ | .str _, _ => rfl
  | .arr items, h => by rw [canonical, canonicalItems_eq_self items h]
  | .obj members, h => by
    rw [canonical, canonicalMembers_eq_self members h.2]
    exact object_of_perm h (List.Perm.refl _)

theorem canonicalItems_eq_self :
    (items : List Json) → NamedItems (List.Pairwise (· < ·)) items → canonicalItems items = items
  | [], _ => rfl
  | x :: xs, h => by rw [canonicalItems, canonical_eq_self x h.1, canonicalItems_eq_self xs h.2]

theorem canonicalMembers_eq_self : (members : List (String × Json)) →
    NamedMembers (List.Pairwise (· < ·)) members → canonicalMembers members = members
  | [], _ => rfl
  | (k, v) :: ms, h => by
    rw [canonicalMembers, canonical_eq_self v h.1, canonicalMembers_eq_self ms h.2]

end

theorem canonicalMembers_eq_map (members : List (String × Json)) :
    canonicalMembers members = members.map fun m => (m.1, m.2.canonical) := by
  induction members with
  | nil => rfl
  | cons m ms ih =>
    obtain ⟨k, v⟩ := m
    rw [canonicalMembers, ih, List.map_cons]

theorem names_canonicalMembers (members : List (String × Json)) :
    (canonicalMembers members).map Prod.fst = members.map Prod.fst := by
  simp [canonicalMembers_eq_map]

/-- Members of different names are all there once they are in order. -/
theorem canonical_obj_of_nodup {members : List (String × Json)}
    (h : (members.map Prod.fst).Nodup) :
    ∃ ms, (Json.obj members).canonical = .obj ms ∧ ms.Perm (canonicalMembers members) := by
  have hnodup : ((canonicalMembers members ++ []).map Prod.fst).Nodup := by
    rw [List.append_nil, names_canonicalMembers]
    exact h
  have hperm := perm_foldl_insertEntry hnodup
  rw [List.append_nil] at hperm
  exact ⟨_, rfl, hperm⟩

end Json

end TaskSwarm
