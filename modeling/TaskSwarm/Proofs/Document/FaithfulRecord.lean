/-
Records are read again as well.

A record that was read has parts that were read or taken for want of a member
(`Fields.kept_of_decode`). Its members bring those parts back in any order, and a
part that was left out when the record was written is the one that is taken for
want of its member (`Fields.decode_of_conveys`). The same holds of families of
records, whose kind travels as one more member (`Variant.faithful_codec`).
-/
import TaskSwarm.Proofs.Document.Faithful

set_option autoImplicit false

namespace TaskSwarm

/-! ## Fields -/

namespace RecordField

variable {α : Type}

/-- A field that keeps its values, and leaves out only what is taken for want of it. -/
structure Faithful (f : RecordField α) : Prop where
  codec : f.codec.Faithful
  absent : ∀ a, f.absent = some a → f.codec.Keeps a
  short : ∀ a, f.short = some a → f.codec.Keeps a
  omitted : ∀ a, f.omitted a = true → f.absent = some a

theorem faithful_required (name : String) {c : Codec α} (hc : c.Faithful) :
    (required name c).Faithful :=
  ⟨hc, nofun, nofun, nofun⟩

theorem faithful_withDefault (name : String) {c : Codec α} (hc : c.Faithful) {default : α}
    (hdefault : c.Keeps default) : (withDefault name c default).Faithful where
  codec := hc
  absent := by
    rintro a ⟨⟩
    exact hdefault
  short := by
    rintro a ⟨⟩
    exact hdefault
  omitted := nofun

theorem faithful_optional (name : String) {c : Codec α} (hc : c.Faithful) (hsolid : c.Solid) :
    (optional name c).Faithful where
  codec := hc.option hsolid
  absent := by
    rintro a ⟨⟩
    exact Codec.keeps_none c
  short := nofun
  omitted := nofun

theorem Faithful.omitting {f : RecordField α} (hf : f.Faithful) {omitted : α → Bool}
    (h : ∀ a, omitted a = true → f.absent = some a) : (f.omitting omitted).Faithful :=
  ⟨hf.codec, hf.absent, hf.short, h⟩

theorem Faithful.alsoNamed {f : RecordField α} (hf : f.Faithful) (name : String) :
    (f.alsoNamed name).Faithful :=
  ⟨hf.codec, hf.absent, hf.short, hf.omitted⟩

end RecordField

namespace Fields

variable {β : Type} {s : Source}

/-- Every field keeps its values. -/
def Faithful : {β : Type} → Fields β → Prop
  | _, .nil => True
  | _, .cons f rest => f.Faithful ∧ rest.Faithful

/-- Every part is kept by its field. -/
def Kept : {β : Type} → Fields β → β → Prop
  | _, .nil, _ => True
  | _, .cons f rest, (a, b) => f.codec.Keeps a ∧ rest.Kept b

/-- Whether no field answers to the name of a later one. -/
def isClear : {β : Type} → Fields β → Bool
  | _, .nil => true
  | _, .cons f rest => rest.names.all (fun k => !f.answers k) && rest.isClear

/-! ## What was read is kept -/

theorem kept_of_reads {fs : Fields β} (hfs : fs.Faithful) {ms : List (Literal × Document)} {b : β}
    (hms : ∀ m ∈ ms, m.2.Wordless) (h : fs.Reads s ms b) : fs.Kept b := by
  induction fs with
  | nil => trivial
  | cons f rest ih =>
    obtain ⟨a, b⟩ := b
    obtain ⟨hhead, htail⟩ := h
    refine ⟨?_, ih hfs.2 htail⟩
    rcases hhead with ⟨l, d, key, hmem, -, -, hdecode⟩ | habsent
    · exact hfs.1.codec s d a (hms (l, d) hmem) hdecode
    · exact hfs.1.absent a habsent

theorem kept_of_readItems {expected : String} {closing : Closing} {fs : Fields β}
    (hfs : fs.Faithful) {place : Nat} {ds left : List Document} {b : β}
    (hds : ∀ d ∈ ds, d.Wordless)
    (h : readItems expected closing fs s place ds = .ok (b, left)) : fs.Kept b := by
  induction fs generalizing place ds with
  | nil => trivial
  | cons f rest ih =>
    obtain ⟨a, b⟩ := b
    cases ds with
    | cons d ds =>
      obtain ⟨hdecode, hrest⟩ := eq_of_readItems_cons h
      exact ⟨hfs.1.codec s d a (hds d List.mem_cons_self) hdecode,
        ih hfs.2 (fun e he => hds e (List.mem_cons_of_mem _ he)) hrest⟩
    | nil =>
      obtain ⟨hshort, hrest⟩ := eq_of_readItems_nil h
      exact ⟨hfs.1.short a hshort, ih hfs.2 (List.forall_mem_nil _) hrest⟩

/-- The parts of a record that was read, from members or from items, are kept. -/
theorem kept_of_decode {fs : Fields β} (hfs : fs.Faithful) {name : String} {d : Document} {b : β}
    (hd : d.Wordless) (h : fs.decode name s d = .ok b) : fs.Kept b := by
  cases d with
  | obj ms closing =>
    obtain ⟨inner, -, hreads⟩ := reads_of_decode h
    exact kept_of_reads hfs (Document.wordlessMembers_iff.1 hd) hreads
  | arr items closing =>
    obtain ⟨inner, left, -, hread⟩ := exists_of_decode_arr h
    exact kept_of_readItems hfs (Document.wordlessItems_iff.1 hd) hread
  | scalar text plain tag => exact hd.elim
  | _ => cases h

/-! ## What is kept is read -/

/-- What was read of a record once the members of some names were. -/
def draftOf : {β : Type} → (fs : Fields β) → β → List String → fs.Draft
  | _, .nil, _, _ => ()
  | _, .cons f rest, (a, b), keys => (if f.name ∈ keys then some a else none, rest.draftOf b keys)

/-- A member brings a part of a record. -/
def Delivers (s : Source) : {β : Type} → Fields β → β → String → Document → Prop
  | _, .nil, _, _, _ => False
  | _, .cons f rest, (a, b), k, d =>
    (k = f.name ∧ f.codec.decode s d = .ok a) ∨ rest.Delivers s b k d

theorem Delivers.mem_names {fs : Fields β} {b : β} {k : String} {d : Document}
    (h : fs.Delivers s b k d) : k ∈ fs.names := by
  induction fs with
  | nil => exact h.elim
  | cons f rest ih =>
    rcases h with ⟨rfl, -⟩ | h
    · exact List.mem_cons_self
    · exact List.mem_cons_of_mem _ (ih h)

theorem draftOf_nil (fs : Fields β) (b : β) : fs.draftOf b [] = fs.blank := by
  induction fs with
  | nil => rfl
  | cons f rest ih =>
    simp only [draftOf, blank, ih, List.not_mem_nil, if_false]
    rfl

/-- A name that no field has makes no difference. -/
theorem draftOf_cons_of_not_mem {fs : Fields β} {b : β} {k : String} (hk : k ∉ fs.names)
    (keys : List String) : fs.draftOf b (k :: keys) = fs.draftOf b keys := by
  induction fs with
  | nil => rfl
  | cons f rest ih =>
    obtain ⟨a, b⟩ := b
    simp only [names, List.mem_cons, not_or] at hk
    have hname : f.name ≠ k := fun h => hk.1 h.symm
    simp only [draftOf, ih hk.2, List.mem_cons, hname, false_or]
    rfl

/-- The member of a field is taken in by that field. -/
theorem put_of_delivers {fs : Fields β} (hclear : fs.isClear = true) {b : β} {k : String}
    {d : Document} {keys : List String} (hk : k ∉ keys) (h : fs.Delivers s b k d) :
    fs.put s k d (fs.draftOf b keys) = some (.ok (fs.draftOf b (k :: keys))) := by
  induction fs with
  | nil => exact h.elim
  | cons f rest ih =>
    obtain ⟨a, b⟩ := b
    simp only [isClear, Bool.and_eq_true, List.all_eq_true, Bool.not_eq_true'] at hclear
    obtain ⟨hhead, hclear⟩ := hclear
    rcases h with ⟨rfl, hdecode⟩ | h
    · have hanswers : f.answers f.name = true := by simp [RecordField.answers]
      have hnot : f.name ∉ rest.names := by
        intro hmem
        rw [hhead _ hmem] at hanswers
        cases hanswers
      simp [put, draftOf, hanswers, hk, hdecode, draftOf_cons_of_not_mem hnot, Except.map]
    · have hanswers : f.answers k = false := hhead k h.mem_names
      have hne : f.name ≠ k := by
        rintro rfl
        simp [RecordField.answers] at hanswers
      simp [put, draftOf, hanswers, ih hclear h, hne, Except.map]

/-- Members that bring parts of a record are read as those parts. -/
theorem readMembers_of_conveys {fs : Fields β} (hclear : fs.isClear = true) {b : β}
    {ms : List (String × Json)} {ds : List (Literal × Document)} (h : ConveysMembers s ms ds)
    (hms : ∀ k j d, (k, j) ∈ ms → Conveys s j d → fs.Delivers s b k d) {keys : List String}
    (hnodup : (ms.map Prod.fst ++ keys).Nodup) :
    fs.readMembers s (fs.draftOf b keys) ds =
      .ok (fs.draftOf b ((ms.map Prod.fst).reverse ++ keys)) := by
  induction ds generalizing ms keys with
  | nil =>
    cases h
    rfl
  | cons m ds ih =>
    cases h with
    | @cons _ k j ms d _ hhead htail =>
      have hnodup' : (ms.map Prod.fst ++ k :: keys).Nodup :=
        List.perm_middle.nodup_iff.2 hnodup
      have hk : k ∉ keys := by
        have hnot := (List.nodup_cons.1 hnodup).1
        exact fun hmem => hnot (List.mem_append_right _ hmem)
      have hput := put_of_delivers hclear hk (hms k j d List.mem_cons_self hhead)
      have hrest := ih htail (fun k j d hmem => hms k j d (List.mem_cons_of_mem _ hmem)) hnodup'
      simp [readMembers, literal_plain, hput, hrest, bind, Except.bind]

/-- What the parts of one record are written as, if at all, is read as the parts of the other. -/
def Carries : {β : Type} → Fields β → β → β → Prop
  | _, .nil, _, _ => True
  | _, .cons f rest, (a, as), (b, bs) =>
    (if f.omitted a then f.absent = some b
      else ∀ s d, Conveys s (f.codec.encode a) d → f.codec.decode s d = .ok b) ∧
    rest.Carries as bs

/-- A record whose parts are kept is read as itself. -/
theorem carries_of_kept {fs : Fields β} (hfs : fs.Faithful) {b : β} (hkept : fs.Kept b) :
    fs.Carries b b := by
  induction fs with
  | nil => trivial
  | cons f rest ih =>
    obtain ⟨a, b⟩ := b
    refine ⟨?_, ih hfs.2 hkept.2⟩
    split
    · next homitted => exact hfs.1.omitted a homitted
    · exact hkept.1.reads

/-- A record is complete once the members it is carried by were read. -/
theorem finish_draftOf {fs : Fields β} {a b : β} (h : fs.Carries a b) {keys : List String}
    (hkeys : ∀ k ∈ (fs.members a).map Prod.fst, k ∈ keys) :
    fs.finish (fs.draftOf b keys) = .ok b := by
  induction fs with
  | nil => rfl
  | cons f rest ih =>
    obtain ⟨a, as⟩ := a
    obtain ⟨b, bs⟩ := b
    obtain ⟨hhead, htail⟩ := h
    cases homitted : f.omitted a with
    | true =>
      -- The member is missing because it was left out.
      rw [homitted, if_pos rfl] at hhead
      simp only [members, homitted, if_true] at hkeys
      have hor : Option.or (if f.name ∈ keys then some b else none) f.absent = some b := by
        split
        · rfl
        · exact hhead
      simp [finish, draftOf, hor, ih htail hkeys, Except.map]
    | false =>
      simp only [members, homitted, Bool.false_eq_true, if_false, List.map_cons,
        List.forall_mem_cons] at hkeys
      simp [finish, draftOf, hkeys.1, ih htail hkeys.2, Except.map]

theorem delivers_of_mem_members {fs : Fields β} {a b : β} (hcarries : fs.Carries a b) {k : String}
    {j : Json} {d : Document} (hmem : (k, j) ∈ fs.members a) (h : Conveys s j d) :
    fs.Delivers s b k d := by
  induction fs with
  | nil => cases hmem
  | cons f rest ih =>
    obtain ⟨a, as⟩ := a
    obtain ⟨b, bs⟩ := b
    obtain ⟨hhead, htail⟩ := hcarries
    simp only [members] at hmem
    split at hmem
    · exact Or.inr (ih htail hmem)
    · next homitted =>
      rw [if_neg homitted] at hhead
      rcases List.mem_cons.1 hmem with hmem | hmem
      · cases hmem
        exact Or.inl ⟨rfl, hhead s d h⟩
      · exact Or.inr (ih htail hmem)

theorem nodup_names {fs : Fields β} (hclear : fs.isClear = true) : fs.names.Nodup := by
  induction fs with
  | nil => exact List.nodup_nil
  | cons f rest ih =>
    simp only [isClear, Bool.and_eq_true, List.all_eq_true, Bool.not_eq_true'] at hclear
    refine List.nodup_cons.2 ⟨fun hmem => ?_, ih hclear.2⟩
    have hanswers := hclear.1 _ hmem
    simp [RecordField.answers] at hanswers

theorem names_members_sublist (fs : Fields β) (b : β) :
    ((fs.members b).map Prod.fst).Sublist fs.names := by
  induction fs with
  | nil => exact List.Sublist.refl _
  | cons f rest ih =>
    obtain ⟨a, b⟩ := b
    simp only [members]
    split
    · exact (ih b).cons _
    · exact (ih b).cons_cons _

theorem nodup_names_members {fs : Fields β} (hclear : fs.isClear = true) (b : β) :
    ((fs.members b).map Prod.fst).Nodup :=
  (names_members_sublist fs b).nodup (nodup_names hclear)

theorem distinct_members {fs : Fields β} {b : β} (hkept : fs.Kept b) :
    ∀ m ∈ fs.members b, m.2.Distinct := by
  induction fs with
  | nil => exact nofun
  | cons f rest ih =>
    obtain ⟨a, b⟩ := b
    intro m hm
    simp only [members] at hm
    split at hm
    · exact ih hkept.2 m hm
    · rcases List.mem_cons.1 hm with rfl | hm
      · exact hkept.1.distinct
      · exact ih hkept.2 m hm

/-- A record is read from whatever conveys what the record that carries it was written as. -/
theorem decode_of_conveys {fs : Fields β} (hclear : fs.isClear = true) {a b : β}
    (hcarries : fs.Carries a b) (name : String) {d : Document}
    (h : Conveys s (.obj (fs.members a)) d) : fs.decode name s d = .ok b := by
  cases h with
  | @obj _ inner _ ms ds henter hperm hconveys =>
    have hnames := hperm.map Prod.fst
    have hnodup : (ms.map Prod.fst ++ []).Nodup := by
      rw [List.append_nil]
      exact hnames.nodup_iff.2 (nodup_names_members hclear a)
    have hread : fs.readMembers inner (fs.draftOf b []) ds =
        .ok (fs.draftOf b ((ms.map Prod.fst).reverse ++ [])) :=
      readMembers_of_conveys hclear hconveys
        (fun k j d hmem hj => delivers_of_mem_members hcarries (hperm.mem_iff.1 hmem) hj) hnodup
    rw [draftOf_nil, List.append_nil] at hread
    have hfinish : fs.finish (fs.draftOf b (ms.map Prod.fst).reverse) = .ok b := by
      refine finish_draftOf hcarries fun k hk => ?_
      rw [List.mem_reverse]
      exact hnames.mem_iff.2 hk
    simp [decode, henter, hread, hfinish, Document.endMembers, bind, Except.bind]

end Fields

/-! ## Codecs of records -/

namespace Codec

variable {α β : Type} {fs : Fields β} {name : String} {make : β → α} {parts : α → β}

theorem keeps_record (hfs : fs.Faithful) (hclear : fs.isClear = true)
    (hmake : ∀ a, make (parts a) = a) {a : α} (hkept : fs.Kept (parts a)) :
    (fs.codec name make parts).Keeps a where
  distinct := ⟨Fields.nodup_names_members hclear _,
    Json.namedMembers_iff.2 (Fields.distinct_members hkept)⟩
  reads s d h := by
    have hdecode := Fields.decode_of_conveys hclear (Fields.carries_of_kept hfs hkept) name h
    simp [Fields.codec, hdecode, hmake, Except.map]

theorem faithful_record (hfs : fs.Faithful) (hclear : fs.isClear = true)
    (hmake : ∀ a, make (parts a) = a) (hparts : ∀ b, parts (make b) = b) :
    (fs.codec name make parts).Faithful := by
  intro s d a hd h
  obtain ⟨b, hdecode, rfl⟩ := exists_of_map_eq_ok h
  refine keeps_record hfs hclear hmake ?_
  rw [hparts]
  exact Fields.kept_of_decode hfs hd hdecode

end Codec

/-! ## Families of records -/

namespace Variant

variable {α β : Type} {tag : String} {vs : List (Variant α)} {s : Source}

/-- A value of a kind whose other members bring it back. -/
def Keeps (tag : String) (v : Variant α) (a : α) : Prop :=
  ∃ ms, v.members? a = some ms ∧ (((tag, Json.str v.name) :: ms).map Prod.fst).Nodup ∧
    (∀ m ∈ ms, m.2.Distinct) ∧ ∀ d, Conveys .held (.obj ms) d → v.decode d = .ok a

/-- Whatever is read as a value of the kind is kept. -/
def Faithful (tag : String) (v : Variant α) : Prop :=
  ∀ d a, d.Wordless → v.decode d = .ok a → v.Keeps tag a

theorem faithful_of {family name : String} {fs : Fields β} {make : β → α} {parts? : α → Option β}
    (hfs : fs.Faithful) (hclear : fs.isClear = true) (htag : tag ∉ fs.names)
    (hparts : ∀ b, parts? (make b) = some b) :
    (Variant.of family name fs make parts?).Faithful tag := by
  intro d a hd h
  obtain ⟨b, hdecode, rfl⟩ := exists_of_map_eq_ok h
  have hkept : fs.Kept b := Fields.kept_of_decode hfs hd hdecode
  refine ⟨fs.members b, by simp [Variant.of, hparts], ?_, Fields.distinct_members hkept, ?_⟩
  · refine List.nodup_cons.2 ⟨fun hmem => ?_, Fields.nodup_names_members hclear b⟩
    exact htag ((Fields.names_members_sublist fs b).subset hmem)
  · intro d h
    have hdecode := Fields.decode_of_conveys hclear (Fields.carries_of_kept hfs hkept)
      s!"variant {family}::{titled name}" h
    simp only [Variant.of, hdecode]
    rfl

/-- No two kinds of the family have a name or a value in common. -/
structure Apart (vs : List (Variant α)) : Prop where
  names : (vs.map Variant.name).Nodup
  values : ∀ v ∈ vs, ∀ w ∈ vs, ∀ a, (v.members? a).isSome → (w.members? a).isSome →
    v.name = w.name

theorem Apart.eq_of_name (h : Apart vs) {v w : Variant α} (hv : v ∈ vs) (hw : w ∈ vs)
    (hname : v.name = w.name) : v = w :=
  List.inj_on_of_nodup_map h.names hv hw hname

/-- The kind of a value is found by its name. -/
theorem Apart.find?_name (h : Apart vs) {v : Variant α} (hv : v ∈ vs) :
    (vs.find? fun w => w.name = v.name) = some v := by
  cases hfind : vs.find? fun w => decide (w.name = v.name) with
  | none =>
    have hnone := List.find?_eq_none.1 hfind v hv
    simp at hnone
  | some w =>
    have hname : w.name = v.name := by simpa using List.find?_some hfind
    rw [h.eq_of_name (List.mem_of_find?_eq_some hfind) hv hname]

/-- A value is written as what its kind makes of it, after the name of the kind. -/
theorem Apart.encode_eq (h : Apart vs) {family : String} {v : Variant α} (hv : v ∈ vs) {a : α}
    {ms : List (String × Json)} (hms : v.members? a = some ms) :
    (codec family tag vs).encode a = .obj ((tag, .str v.name) :: ms) := by
  have hsome : (vs.findSome? fun w => (w.members? a).map fun ms => (tag, Json.str w.name) :: ms) =
      some ((tag, .str v.name) :: ms) := by
    cases hfind : vs.findSome? fun w => (w.members? a).map fun ms => (tag, Json.str w.name) :: ms with
    | none =>
      have hnone := List.findSome?_eq_none_iff.1 hfind v hv
      simp [hms] at hnone
    | some written =>
      obtain ⟨w, hw, hwritten⟩ := List.exists_of_findSome?_eq_some hfind
      obtain ⟨ms', hms', rfl⟩ := Option.map_eq_some_iff.1 hwritten
      have hwv : w = v :=
        h.eq_of_name hw hv (h.values w hw v hv a (by simp [hms']) (by simp [hms]))
      subst hwv
      cases hms'.symm.trans hms
      rfl
  simp [codec, hsome]

/-! ### The member that names the kind -/

theorem mem_of_decodeName {d : Document} {v : Variant α} (h : decodeName vs d = .ok v) : v ∈ vs := by
  unfold decodeName at h
  split at h
  · obtain ⟨n, -, h⟩ := exists_of_bind_eq_ok h
    split at h
    · next hfind =>
      cases h
      exact List.mem_of_find?_eq_some hfind
    · cases h
  · cases h

/-- The kind that is found is one of the family, and the other members were there before. -/
theorem mem_of_findName {found r : Option (Variant α)} {ds others : List (Literal × Document)}
    (h : findName tag vs s found ds = .ok (r, others)) :
    (∀ v, r = some v → found = some v ∨ v ∈ vs) ∧ ∀ m ∈ others, m ∈ ds := by
  induction ds generalizing found others with
  | nil =>
    cases h
    exact ⟨fun v hv => Or.inl hv, nofun⟩
  | cons m ds ih =>
    obtain ⟨l, d⟩ := m
    obtain ⟨key, -, h⟩ := exists_of_bind_eq_ok h
    split at h
    · split at h
      · cases h
      · obtain ⟨v, hname, h⟩ := exists_of_bind_eq_ok h
        obtain ⟨hfound, hothers⟩ := ih h
        refine ⟨fun w hw => ?_, fun m hm => List.mem_cons_of_mem _ (hothers m hm)⟩
        rcases hfound w hw with heq | hmem
        · cases heq
          exact Or.inr (mem_of_decodeName hname)
        · exact Or.inr hmem
    · obtain ⟨_, -, h⟩ := exists_of_bind_eq_ok h
      obtain ⟨⟨r', others'⟩, hrest, h⟩ := exists_of_bind_eq_ok h
      cases h
      obtain ⟨hfound, hothers⟩ := ih hrest
      refine ⟨hfound, fun m hm => ?_⟩
      rcases List.mem_cons.1 hm with rfl | hm
      · exact List.mem_cons_self
      · exact List.mem_cons_of_mem _ (hothers m hm)

/-- Without the name of a member all members are left. -/
theorem filter_ne_eq_self {ms : List (String × Json)} (h : tag ∉ ms.map Prod.fst) :
    (ms.filter fun m => !decide (m.1 = tag)) = ms := by
  refine List.filter_eq_self.2 fun m hm => ?_
  have hne : m.1 ≠ tag := by
    rintro rfl
    exact h (List.mem_map_of_mem hm)
  simpa using hne

theorem findName_of_not_mem {ms : List (String × Json)} {ds : List (Literal × Document)}
    (h : ConveysMembers s ms ds) (htag : tag ∉ ms.map Prod.fst) (found : Option (Variant α)) :
    findName tag vs s found ds = .ok (found, ds) := by
  induction ds generalizing ms with
  | nil => rfl
  | cons m ds ih =>
    cases h with
    | @cons _ k j ms d _ hhead htail =>
      simp only [List.map_cons, List.mem_cons, not_or] at htag
      obtain ⟨_, hjson, -⟩ := exists_toJson_of_conveys hhead
      have hne : k ≠ tag := fun heq => htag.1 heq.symm
      simp [findName, literal_plain, hne, hjson, ih htail htag.2, bind, Except.bind, pure, Except.pure]

/-- The kind is found wherever its name stands, and the other members keep their order. -/
theorem findName_of_conveys {ms : List (String × Json)} {ds : List (Literal × Document)}
    (h : ConveysMembers s ms ds) (hnodup : (ms.map Prod.fst).Nodup) {v : Variant α}
    (htag : (tag, .str v.name) ∈ ms) (hfind : (vs.find? fun w => w.name = v.name) = some v) :
    ∃ others, findName tag vs s none ds = .ok (some v, others) ∧
      ConveysMembers s (ms.filter fun m => !decide (m.1 = tag)) others := by
  induction ds generalizing ms with
  | nil =>
    cases h
    cases htag
  | cons m ds ih =>
    cases h with
    | @cons _ k j ms d _ hhead htail =>
      obtain ⟨hk, hnodup⟩ := List.nodup_cons.1 hnodup
      rcases List.mem_cons.1 htag with hfirst | hlater
      · cases hfirst
        cases hhead
        refine ⟨ds, ?_, ?_⟩
        · have hrest : findName tag vs s (some v) ds = .ok (some v, ds) :=
            findName_of_not_mem htail hk (some v)
          simp [findName, literal_plain, decodeName, hfind, hrest, bind, Except.bind, pure, Except.pure]
        · simpa [filter_ne_eq_self hk] using htail
      · have hne : k ≠ tag := by
          rintro rfl
          exact hk (List.mem_map.2 ⟨_, hlater, rfl⟩)
        obtain ⟨others, hfound, hothers⟩ := ih htail hnodup hlater
        obtain ⟨_, hjson, -⟩ := exists_toJson_of_conveys hhead
        refine ⟨(.plain k, d) :: others, ?_, ?_⟩
        · simp [findName, literal_plain, hne, hjson, hfound, bind, Except.bind, pure, Except.pure]
        · simpa [hne] using ConveysMembers.cons hhead hothers

/-! ### The family -/

theorem keeps_codec (h : Apart vs) (family : String) {v : Variant α} (hv : v ∈ vs) {a : α}
    (ha : v.Keeps tag a) : (codec family tag vs).Keeps a := by
  obtain ⟨ms, hms, hnodup, hdistinct, hreads⟩ := ha
  have hencode : (codec family tag vs).encode a = .obj ((tag, .str v.name) :: ms) :=
    h.encode_eq hv hms
  refine ⟨?_, fun s d hconveys => ?_⟩
  · rw [hencode]
    exact ⟨hnodup, trivial, Json.namedMembers_iff.2 hdistinct⟩
  · rw [hencode] at hconveys
    cases hconveys with
    | @obj _ inner _ ns ds henter hperm hmembers =>
      have hns : (ns.map Prod.fst).Nodup := (hperm.map Prod.fst).nodup_iff.2 hnodup
      obtain ⟨others, hfound, hothers⟩ := findName_of_conveys hmembers hns
        (hperm.mem_iff.2 List.mem_cons_self) (h.find?_name hv)
      have hfilter : (ns.filter fun m => !decide (m.1 = tag)).Perm ms := by
        have hfiltered := hperm.filter fun m => !decide (m.1 = tag)
        simpa [filter_ne_eq_self (List.nodup_cons.1 hnodup).1] using hfiltered
      have hdecode := hreads _ (.obj rfl hfilter hothers.held)
      simp [codec, henter, hfound, found, hdecode, Document.endMembers, bind, Except.bind]

theorem faithful_codec (h : Apart vs) (hvs : ∀ v ∈ vs, v.Faithful tag) (family : String) :
    (codec family tag vs).Faithful := by
  intro s d a hd hdecode
  -- Whatever shape the record has, one of the kinds reads what is left of it.
  obtain ⟨v, d', hv, hd', hread⟩ : ∃ v d', v ∈ vs ∧ d'.Wordless ∧ v.decode d' = .ok a := by
    unfold codec at hdecode
    simp only at hdecode
    split at hdecode
    · next ms closing =>
      obtain ⟨inner, -, hdecode⟩ := exists_of_bind_eq_ok hdecode
      obtain ⟨⟨r, others⟩, hname, hdecode⟩ := exists_of_bind_eq_ok hdecode
      obtain ⟨_, -, hdecode⟩ := exists_of_bind_eq_ok hdecode
      obtain ⟨v, hfound, hread⟩ := exists_of_bind_eq_ok hdecode
      obtain ⟨hmem, hothers⟩ := mem_of_findName hname
      have hv : v ∈ vs := by
        cases r with
        | none => cases hfound
        | some w =>
          cases hfound
          exact (hmem v rfl).resolve_left nofun
      have hwordless : (Document.obj others .closed).Wordless :=
        Document.wordlessMembers_iff.2 fun m hm =>
          Document.wordlessMembers_iff.1 hd m (hothers m hm)
      exact ⟨v, _, hv, hwordless, hread⟩
    · next d items closing =>
      obtain ⟨inner, -, hdecode⟩ := exists_of_bind_eq_ok hdecode
      obtain ⟨v, hname, hdecode⟩ := exists_of_bind_eq_ok hdecode
      obtain ⟨_, -, hdecode⟩ := exists_of_bind_eq_ok hdecode
      obtain ⟨_, -, hread⟩ := exists_of_bind_eq_ok hdecode
      have hwordless : (Document.arr items .closed).Wordless := hd.2
      exact ⟨v, _, mem_of_decodeName hname, hwordless, hread⟩
    · obtain ⟨_, -, hdecode⟩ := exists_of_bind_eq_ok hdecode
      obtain ⟨_, -, hdecode⟩ := exists_of_bind_eq_ok hdecode
      cases hdecode
    · cases hdecode
  exact keeps_codec h family hv (hvs v hv d' a hd' hread)

end Variant

end TaskSwarm
