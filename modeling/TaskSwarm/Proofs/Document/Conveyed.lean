/-
Values and the trees that stand for them.

`Conveys s j d` says that a reader who may look at the tree `d` the way `s`
allows finds the value `j` there, the members of its objects in any order. The
tree of a value is one (`conveys_ofJson`), and so is the tree of the value with
its members put in order (`conveys_canonical`). A value that was itself taken in
from a tree comes out of every tree that conveys it (`toJson_of_conveys`).
-/
import Mathlib.Data.List.Nodup
import Mathlib.Data.List.Perm.Basic
import TaskSwarm.Document.Read
import TaskSwarm.Proofs.Document.Record
import TaskSwarm.Proofs.Json.Canonical

set_option autoImplicit false

namespace TaskSwarm

namespace Document

/-! ## Trees without bare words -/

mutual

/-- Whether a tree has no bare word anywhere; only configuration files have them. -/
def Wordless : Document → Prop
  | .scalar .. => False
  | .arr items _ => WordlessItems items
  | .obj members _ => WordlessMembers members
  | _ => True

/-- `Wordless` of each item. -/
def WordlessItems : List Document → Prop
  | [] => True
  | x :: xs => x.Wordless ∧ WordlessItems xs

/-- `Wordless` of the value of each member. -/
def WordlessMembers : List (Literal × Document) → Prop
  | [] => True
  | (_, d) :: ms => d.Wordless ∧ WordlessMembers ms

end

theorem wordlessItems_iff {items : List Document} :
    WordlessItems items ↔ ∀ d ∈ items, d.Wordless := by
  induction items with
  | nil => simp [WordlessItems]
  | cons d ds ih => simp [WordlessItems, ih]

theorem wordlessMembers_iff {members : List (Literal × Document)} :
    WordlessMembers members ↔ ∀ m ∈ members, m.2.Wordless := by
  induction members with
  | nil => simp [WordlessMembers]
  | cons m ms ih =>
    obtain ⟨l, d⟩ := m
    simp [WordlessMembers, ih]

mutual

theorem wordless_ofJson : (j : Json) → (ofJson j).Wordless
  | .null | .bool _ | .num _ | .str _ => trivial
  | .arr items => wordless_ofItems items
  | .obj members => wordless_ofMembers members

theorem wordless_ofItems : (items : List Json) → WordlessItems (ofItems items)
  | [] => trivial
  | x :: xs => ⟨wordless_ofJson x, wordless_ofItems xs⟩

theorem wordless_ofMembers : (members : List (String × Json)) → WordlessMembers (ofMembers members)
  | [] => trivial
  | (_, v) :: ms => ⟨wordless_ofJson v, wordless_ofMembers ms⟩

end

/-! ## What is taken in is in order -/

mutual

theorem ordered_of_toJson {s : Source} : (d : Document) → {j : Json} →
    d.toJson s = .ok j → j.Ordered
  | .null, _, h | .bool _, _, h | .num _, _, h => by cases h; trivial
  | .str l, _, h => by
    obtain ⟨_, -, rfl⟩ := exists_of_map_eq_ok h
    trivial
  | .scalar .., _, h => by
    simp only [toJson, Except.ok.injEq] at h
    subst h
    split <;> trivial
  | .arr items closing, _, h => by
    obtain ⟨inner, -, h⟩ := exists_of_bind_eq_ok h
    obtain ⟨js, hitems, h⟩ := exists_of_bind_eq_ok h
    obtain ⟨_, -, h⟩ := exists_of_bind_eq_ok h
    cases h
    exact Json.namedItems_iff.2 (ordered_of_toItems items hitems)
  | .obj members closing, _, h => by
    obtain ⟨inner, -, h⟩ := exists_of_bind_eq_ok h
    obtain ⟨ms, hmembers, h⟩ := exists_of_bind_eq_ok h
    obtain ⟨_, -, h⟩ := exists_of_bind_eq_ok h
    cases h
    exact Json.ordered_object (ordered_of_toMembers members hmembers)
  | .garbled .., _, h | .missing _, _, h => by cases h

theorem ordered_of_toItems {s : Source} : (ds : List Document) → {js : List Json} →
    toItems s ds = .ok js → ∀ j ∈ js, j.Ordered
  | [], _, h => by
    cases h
    exact nofun
  | d :: ds, _, h => by
    obtain ⟨j, hhead, h⟩ := exists_of_bind_eq_ok h
    obtain ⟨js, htail, h⟩ := exists_of_bind_eq_ok h
    cases h
    intro x hx
    rcases List.mem_cons.1 hx with rfl | hx
    · exact ordered_of_toJson d hhead
    · exact ordered_of_toItems ds htail x hx

theorem ordered_of_toMembers {s : Source} : (ms : List (Literal × Document)) →
    {js : List (String × Json)} → toMembers s ms = .ok js → ∀ m ∈ js, m.2.Ordered
  | [], _, h => by
    cases h
    exact nofun
  | (l, d) :: ms, _, h => by
    obtain ⟨k, -, h⟩ := exists_of_bind_eq_ok h
    obtain ⟨j, hhead, h⟩ := exists_of_bind_eq_ok h
    obtain ⟨js, htail, h⟩ := exists_of_bind_eq_ok h
    cases h
    intro x hx
    rcases List.mem_cons.1 hx with rfl | hx
    · exact ordered_of_toJson d hhead
    · exact ordered_of_toMembers ms htail x hx

end

/-- Only null is taken in as null, unless it is a word. -/
theorem eq_null_of_toJson {s : Source} {d : Document} (hd : d.Wordless)
    (h : d.toJson s = .ok .null) : d = .null := by
  cases d with
  | null => rfl
  | bool b => cases h
  | num n => cases h
  | str l =>
    obtain ⟨_, -, h⟩ := exists_of_map_eq_ok h
    cases h
  | scalar text plain tag => exact hd.elim
  | arr items closing =>
    obtain ⟨_, -, h⟩ := exists_of_bind_eq_ok h
    obtain ⟨_, -, h⟩ := exists_of_bind_eq_ok h
    obtain ⟨_, -, h⟩ := exists_of_bind_eq_ok h
    cases h
  | obj members closing =>
    obtain ⟨_, -, h⟩ := exists_of_bind_eq_ok h
    obtain ⟨_, -, h⟩ := exists_of_bind_eq_ok h
    obtain ⟨_, -, h⟩ := exists_of_bind_eq_ok h
    cases h
  | garbled read skipped => cases h
  | missing cause => cases h

end Document

/-! ## Trees that stand for a value -/

mutual

/-- Whether a reader finds a value in a tree. -/
inductive Conveys : Source → Json → Document → Prop
  | null (s : Source) : Conveys s .null .null
  | bool (s : Source) (b : Bool) : Conveys s (.bool b) (.bool b)
  | num (s : Source) (n : Number) : Conveys s (.num n) (.num n)
  | str (s : Source) (t : String) : Conveys s (.str t) (.str (.plain t))
  | arr {s inner : Source} {items : List Json} {ds : List Document} :
    s.enter = .ok inner → ConveysItems inner items ds →
    Conveys s (.arr items) (.arr ds .closed)
  | obj {s inner : Source} {members ms : List (String × Json)} {ds : List (Literal × Document)} :
    s.enter = .ok inner → ms.Perm members → ConveysMembers inner ms ds →
    Conveys s (.obj members) (.obj ds .closed)

/-- `Conveys` of the items, one by one. -/
inductive ConveysItems : Source → List Json → List Document → Prop
  | nil (s : Source) : ConveysItems s [] []
  | cons {s : Source} {j : Json} {js : List Json} {d : Document} {ds : List Document} :
    Conveys s j d → ConveysItems s js ds → ConveysItems s (j :: js) (d :: ds)

/-- `Conveys` of the values of the members, one by one. -/
inductive ConveysMembers : Source → List (String × Json) → List (Literal × Document) → Prop
  | nil (s : Source) : ConveysMembers s [] []
  | cons {s : Source} {k : String} {j : Json} {js : List (String × Json)} {d : Document}
    {ds : List (Literal × Document)} :
    Conveys s j d → ConveysMembers s js ds → ConveysMembers s ((k, j) :: js) ((.plain k, d) :: ds)

end

theorem literal_plain (k : String) : Document.literal (.plain k) = .ok k := rfl

/-- The keys of a tree that conveys some members are their names. -/
theorem ConveysMembers.keys {s : Source} {js : List (String × Json)}
    {ds : List (Literal × Document)} (h : ConveysMembers s js ds) :
    ds.map Prod.fst = (js.map Prod.fst).map Literal.plain := by
  induction ds generalizing js with
  | nil =>
    cases h
    rfl
  | cons m ds ih =>
    cases h with
    | cons _ htail => simp [ih htail]

/-! ## Trees of values in memory -/

section

variable {s : Source}

mutual

theorem conveys_ofJson (hs : s.enter = .ok s) : (j : Json) → Conveys s j (.ofJson j)
  | .null => .null s
  | .bool b => .bool s b
  | .num n => .num s n
  | .str t => .str s t
  | .arr items => .arr hs (conveysItems_ofItems hs items)
  | .obj members => .obj hs (List.Perm.refl _) (conveysMembers_ofMembers hs members)

theorem conveysItems_ofItems (hs : s.enter = .ok s) :
    (items : List Json) → ConveysItems s items (Document.ofItems items)
  | [] => .nil s
  | x :: xs => .cons (conveys_ofJson hs x) (conveysItems_ofItems hs xs)

theorem conveysMembers_ofMembers (hs : s.enter = .ok s) :
    (members : List (String × Json)) → ConveysMembers s members (Document.ofMembers members)
  | [] => .nil s
  | (_, v) :: ms => .cons (conveys_ofJson hs v) (conveysMembers_ofMembers hs ms)

end

end

/-! ## Members in another order -/

/-- The members of a tree may change places. -/
theorem ConveysMembers.of_perm {s : Source} {js : List (String × Json)}
    {ds es : List (Literal × Document)} (hperm : es.Perm ds) (h : ConveysMembers s js ds) :
    ∃ ms, ms.Perm js ∧ ConveysMembers s ms es := by
  induction hperm generalizing js with
  | nil => exact ⟨js, List.Perm.refl _, h⟩
  | cons m _ ih =>
    cases h with
    | cons hhead htail =>
      obtain ⟨ms, hms, hconveys⟩ := ih htail
      exact ⟨_, hms.cons _, .cons hhead hconveys⟩
  | swap m n _ =>
    cases h with
    | cons hfirst h =>
      cases h with
      | cons hsecond htail => exact ⟨_, List.Perm.swap _ _ _, .cons hsecond (.cons hfirst htail)⟩
  | trans _ _ ih₁ ih₂ =>
    obtain ⟨ms, hms, hconveys⟩ := ih₂ h
    obtain ⟨ns, hns, hconveys⟩ := ih₁ hconveys
    exact ⟨ns, hns.trans hms, hconveys⟩

theorem Document.ofMembers_eq_map (members : List (String × Json)) :
    Document.ofMembers members = members.map fun m => (.plain m.1, .ofJson m.2) := by
  induction members with
  | nil => rfl
  | cons m ms ih =>
    obtain ⟨k, v⟩ := m
    simp [Document.ofMembers, ih]

section

variable {s : Source}

mutual

/-- A value may be put in order on its way, if no name in it stands for two members. -/
theorem conveys_canonical (hs : s.enter = .ok s) :
    (j : Json) → j.Distinct → Conveys s j (.ofJson j.canonical)
  | .null, _ => .null s
  | .bool b, _ => .bool s b
  | .num n, _ => .num s n
  | .str t, _ => .str s t
  | .arr items, h => .arr hs (conveysItems_canonical hs items h)
  | .obj members, h => by
    obtain ⟨ms, hms, hperm⟩ := Json.canonical_obj_of_nodup h.1
    have hdocs : (Document.ofMembers ms).Perm (Document.ofMembers (Json.canonicalMembers members)) := by
      rw [Document.ofMembers_eq_map, Document.ofMembers_eq_map]
      exact hperm.map _
    obtain ⟨js, hjs, hconveys⟩ := (conveysMembers_canonical hs members h.2).of_perm hdocs
    rw [hms]
    exact .obj hs hjs hconveys

theorem conveysItems_canonical (hs : s.enter = .ok s) : (items : List Json) →
    Json.NamedItems List.Nodup items →
    ConveysItems s items (Document.ofItems (Json.canonicalItems items))
  | [], _ => .nil s
  | x :: xs, h => .cons (conveys_canonical hs x h.1) (conveysItems_canonical hs xs h.2)

theorem conveysMembers_canonical (hs : s.enter = .ok s) : (members : List (String × Json)) →
    Json.NamedMembers List.Nodup members →
    ConveysMembers s members (Document.ofMembers (Json.canonicalMembers members))
  | [], _ => .nil s
  | (_, v) :: ms, h => .cons (conveys_canonical hs v h.1) (conveysMembers_canonical hs ms h.2)

end

end

/-! ## What a reader finds -/

mutual

/-- What is conveyed to some reader is conveyed to a reader without limits. -/
theorem Conveys.held {s : Source} {j : Json} {d : Document} :
    Conveys s j d → Conveys .held j d
  | .null _ => .null _
  | .bool _ b => .bool _ b
  | .num _ n => .num _ n
  | .str _ t => .str _ t
  | .arr _ hitems => .arr rfl hitems.held
  | .obj _ hperm hmembers => .obj rfl hperm hmembers.held

theorem ConveysItems.held {s : Source} {js : List Json} {ds : List Document} :
    ConveysItems s js ds → ConveysItems .held js ds
  | .nil _ => .nil _
  | .cons hhead htail => .cons hhead.held htail.held

theorem ConveysMembers.held {s : Source} {js : List (String × Json)}
    {ds : List (Literal × Document)} : ConveysMembers s js ds → ConveysMembers .held js ds
  | .nil _ => .nil _
  | .cons hhead htail => .cons hhead.held htail.held

end

mutual

/-- A value is taken in from any tree that conveys it, its members put in order. -/
theorem exists_toJson_of_conveys {s : Source} {j : Json} {d : Document} :
    Conveys s j d → ∃ k, d.toJson s = .ok k ∧ (j.Ordered → k = j)
  | .null _ => ⟨.null, rfl, fun _ => rfl⟩
  | .bool _ b => ⟨.bool b, rfl, fun _ => rfl⟩
  | .num _ n => ⟨.num n, rfl, fun _ => rfl⟩
  | .str _ t => ⟨.str t, rfl, fun _ => rfl⟩
  | .arr henter hitems => by
    obtain ⟨ks, hks, heq⟩ := exists_toItems_of_conveys hitems
    refine ⟨.arr ks, ?_, fun h => by rw [heq h]⟩
    simp [Document.toJson, henter, hks, Document.endItems, bind, Except.bind, pure, Except.pure]
  | @Conveys.obj _ _ members ms _ henter hperm hmembers => by
    obtain ⟨ks, hks, heq⟩ := exists_toMembers_of_conveys hmembers
    refine ⟨.object ks, ?_, fun h => ?_⟩
    · simp [Document.toJson, henter, hks, Document.endMembers, bind, Except.bind, pure, Except.pure]
    · have hms : Json.NamedMembers (List.Pairwise (· < ·)) ms := by
        refine Json.namedMembers_iff.2 fun m hm => ?_
        exact Json.namedMembers_iff.1 h.2 m (hperm.mem_iff.1 hm)
      rw [heq hms]
      exact Json.object_of_perm h hperm

theorem exists_toItems_of_conveys {s : Source} {js : List Json} {ds : List Document} :
    ConveysItems s js ds →
    ∃ ks, Document.toItems s ds = .ok ks ∧ (Json.NamedItems (List.Pairwise (· < ·)) js → ks = js)
  | .nil _ => ⟨[], rfl, fun _ => rfl⟩
  | .cons hhead htail => by
    obtain ⟨k, hk, heq⟩ := exists_toJson_of_conveys hhead
    obtain ⟨ks, hks, heqs⟩ := exists_toItems_of_conveys htail
    refine ⟨k :: ks, ?_, fun h => by rw [heq h.1, heqs h.2]⟩
    simp [Document.toItems, hk, hks, bind, Except.bind, pure, Except.pure]

theorem exists_toMembers_of_conveys {s : Source} {js : List (String × Json)}
    {ds : List (Literal × Document)} : ConveysMembers s js ds →
    ∃ ks, Document.toMembers s ds = .ok ks ∧
      (Json.NamedMembers (List.Pairwise (· < ·)) js → ks = js)
  | .nil _ => ⟨[], rfl, fun _ => rfl⟩
  | @ConveysMembers.cons _ name _ _ _ _ hhead htail => by
    obtain ⟨k, hk, heq⟩ := exists_toJson_of_conveys hhead
    obtain ⟨ks, hks, heqs⟩ := exists_toMembers_of_conveys htail
    refine ⟨(name, k) :: ks, ?_, fun h => by rw [heq h.1, heqs h.2]⟩
    simp [Document.toMembers, literal_plain, hk, hks, bind, Except.bind, pure, Except.pure]

end

/-- A value in order is taken in as it is. -/
theorem toJson_of_conveys {s : Source} {j : Json} {d : Document} (h : Conveys s j d)
    (hj : j.Ordered) : d.toJson s = .ok j := by
  obtain ⟨k, hk, heq⟩ := exists_toJson_of_conveys h
  rw [hk, heq hj]

end TaskSwarm
