/-
Addresses come back from their text.

Numbers are written in base ten or sixteen without a needless digit, and read back as they
were. A host of four numbers is split where its points are, and one of eight where its
colons are. Two colons next to each other stand only where a run of zeros was left out,
because the text of a number holds no colon and is not empty (`aroundGap?_append`), and the
zeros that are put back are as many as were left out (`longestRun_eq`). A host that wraps four
numbers in eight is written with its own kind of end, which is no number of base sixteen since
it is too long (`group?_octetChars`). So every address is read from its text
(`ofString?_render`), and all that is ever written of one is kept.
-/
import Mathlib.Data.List.TakeDrop
import TaskSwarm.Proofs.Decimal.Layout
import TaskSwarm.Proofs.Document.Faithful
import TaskSwarm.Wire.Address

set_option autoImplicit false

namespace TaskSwarm

/-! ## Numbers in base sixteen -/

theorem exists_digit_of_mem_toDigits {n : Nat} {c : Char} (h : c ∈ Nat.toDigits 16 n) :
    ∃ d, d < 16 ∧ c = d.digitChar := by
  induction n using Nat.strongRecOn with
  | ind n ih =>
    by_cases hlt : n < 16
    · rw [Nat.toDigits_of_lt_base hlt] at h
      exact ⟨n, hlt, List.mem_singleton.1 h⟩
    · rw [Nat.toDigits_of_base_le (by decide) (Nat.le_of_not_lt hlt)] at h
      rcases List.mem_append.1 h with h | h
      · exact ih (n / 16) (by omega) h
      · exact ⟨n % 16, Nat.mod_lt _ (by decide), List.mem_singleton.1 h⟩

theorem hexDigitValue?_digitChar {d : Nat} (h : d < 16) :
    Text.hexDigitValue? d.digitChar = some d := by
  have hall : ∀ d : Fin 16, Text.hexDigitValue? d.val.digitChar = some d.val := by decide
  exact hall ⟨d, h⟩

/-- A number is read from its digits in base sixteen. -/
theorem Scalar.natIn?_toDigits (n : Nat) : natIn? 16 (Nat.toDigits 16 n) = some n := by
  induction n using Nat.strongRecOn with
  | ind n ih =>
    by_cases hlt : n < 16
    · rw [Nat.toDigits_of_lt_base hlt]
      simp [natIn?, hexDigitValue?_digitChar hlt, hlt]
    · have hmod : n % 16 < 16 := Nat.mod_lt _ (by decide)
      have hhead := ih (n / 16) (by omega)
      rw [Nat.toDigits_of_base_le (by decide) (Nat.le_of_not_lt hlt)]
      cases hds : Nat.toDigits 16 (n / 16) with
      | nil => exact absurd hds Nat.toDigits_ne_nil
      | cons d ds =>
        rw [hds] at hhead
        simp only [natIn?, List.cons_append] at hhead ⊢
        rw [← List.cons_append, List.foldl_append, hhead]
        simp [hexDigitValue?_digitChar hmod, hmod]
        omega

namespace SocketAddress

/-! ## Numbers of an address -/

theorem decimal?_toDigits {bound n : Nat} (h : n < bound) :
    decimal? bound (Nat.toDigits 10 n) = some n := by
  have hdigits := Decimal.isDigits_toDigits n
  have hne : (Nat.toDigits 10 n).isEmpty = false := List.isEmpty_eq_false_iff.2 hdigits.ne_nil
  have hall : (Nat.toDigits 10 n).all Char.isDigit = true := List.all_eq_true.2 hdigits.isDigit
  simp [decimal?, hne, hall, Decimal.natOfDigits_toDigits, h]

theorem hasIdleZero_toDigits (n : Nat) : Scalar.hasIdleZero (Nat.toDigits 10 n) = false := by
  have hwhole := Decimal.isWhole_toDigits n
  unfold Scalar.hasIdleZero
  split
  · next c rest heq =>
    have hhead := hwhole.head_ne_zero (by simp [heq])
    simp [heq] at hhead
  · rfl

theorem octet?_toDigits (n : UInt8) : octet? (Nat.toDigits 10 n.toNat) = some n := by
  have hlt : n.toNat < 256 := n.toNat_lt
  have hlength : (Nat.toDigits 10 n.toNat).length ≤ 3 :=
    (Nat.length_toDigits_le_iff (by decide) (by decide)).2 (by omega)
  have hshort : decide (3 < (Nat.toDigits 10 n.toNat).length) = false := by simpa using hlength
  simp [octet?, hshort, hasIdleZero_toDigits, decimal?_toDigits hlt]

theorem group?_toDigits (n : UInt16) : group? (Nat.toDigits 16 n.toNat) = some n := by
  have hlt : n.toNat < 65536 := n.toNat_lt
  have hlength : (Nat.toDigits 16 n.toNat).length ≤ 4 :=
    (Nat.length_toDigits_le_iff (by decide) (by decide)).2 (by omega)
  simp [group?, Nat.not_lt.2 hlength, Scalar.natIn?_toDigits]

theorem port?_toDigits (n : UInt16) : port? (Nat.toDigits 10 n.toNat) = some n := by
  simp [port?, decimal?_toDigits n.toNat_lt]

theorem joined_high_low (n : UInt16) : joined (high n) (low n) = n := by
  have hlt : n.toNat < 65536 := n.toNat_lt
  have hmod : (n.toNat / 256 % 256 * 256 + n.toNat % 256) % 65536 = n.toNat := by omega
  rw [← UInt16.toNat_inj]
  simpa [joined, high, low] using hmod

/-! ## Marks stand between numbers -/

/-- A digit of base ten is no mark. -/
theorem not_mem_toDigits_ten {c : Char} (hc : c.isDigit = false) (n : Nat) : c ∉ Nat.toDigits 10 n := by
  intro hmem
  have hdigit := (Decimal.isDigits_toDigits n).isDigit c hmem
  rw [hc] at hdigit
  cases hdigit

/-- A digit of base sixteen is no mark. -/
theorem not_mem_toDigits_sixteen {c : Char} (hc : Text.hexDigitValue? c = none) (n : Nat) :
    c ∉ Nat.toDigits 16 n := by
  intro hmem
  obtain ⟨d, hd, rfl⟩ := exists_digit_of_mem_toDigits hmem
  rw [hexDigitValue?_digitChar hd] at hc
  cases hc

theorem not_mem_intercalate {c mark : Char} (hne : c ≠ mark) {parts : List (List Char)}
    (h : ∀ part ∈ parts, c ∉ part) : c ∉ List.intercalate [mark] parts := by
  induction parts with
  | nil => simp
  | cons part parts ih =>
    obtain ⟨hpart, hparts⟩ := List.forall_mem_cons.1 h
    cases parts with
    | nil => simpa using hpart
    | cons next parts =>
      rw [List.intercalate_cons_cons]
      simp only [List.mem_append, List.mem_singleton, not_or]
      exact ⟨⟨hpart, hne⟩, ih hparts⟩

theorem not_mem_octetChars {c : Char} (hc : c.isDigit = false) (hpoint : c ≠ '.') (o : Octets) :
    c ∉ octetChars o := by
  refine not_mem_intercalate hpoint fun part hpart => ?_
  obtain ⟨n, -, rfl⟩ := List.mem_map.1 hpart
  exact not_mem_toDigits_ten hc _

theorem not_mem_groupChars {c : Char} (hc : Text.hexDigitValue? c = none) (hcolon : c ≠ ':')
    (gs : List UInt16) : c ∉ groupChars gs := by
  refine not_mem_intercalate hcolon fun part hpart => ?_
  obtain ⟨n, -, rfl⟩ := List.mem_map.1 hpart
  exact not_mem_toDigits_sixteen hc _

/-! ## Four numbers -/

theorem octets?_octetChars (o : Octets) : octets? (octetChars o) = some o := by
  have hsplit : (octetChars o).splitOn '.' =
      [o.a, o.b, o.c, o.d].map fun n => Nat.toDigits 10 n.toNat := by
    refine List.splitOn_intercalate '.' (fun part hpart => ?_) (by simp)
    obtain ⟨n, -, rfl⟩ := List.mem_map.1 hpart
    exact not_mem_toDigits_ten rfl _
  simp [octets?, hsplit, octet?_toDigits]

/-- Four numbers are too long for one number of base sixteen. -/
theorem group?_octetChars (o : Octets) : group? (octetChars o) = none := by
  have hpos : ∀ n : UInt8, 0 < (Nat.toDigits 10 n.toNat).length :=
    fun n => List.length_pos_iff.2 Nat.toDigits_ne_nil
  have hlength : 4 < (octetChars o).length := by
    have ha := hpos o.a
    have hb := hpos o.b
    have hc := hpos o.c
    have hd := hpos o.d
    simp [octetChars, List.intercalate_cons_cons]
    omega
  simp [group?, hlength]

/-! ## Numbers with colons between them -/

theorem groupChars_cons (g g' : UInt16) (gs : List UInt16) :
    groupChars (g :: g' :: gs) = Nat.toDigits 16 g.toNat ++ ':' :: groupChars (g' :: gs) := by
  simp [groupChars, List.intercalate_cons_cons]

/-- Numbers start with the first digit of the first of them. -/
theorem exists_groupChars (g : UInt16) (gs : List UInt16) : ∃ d more,
    groupChars (g :: gs) = d :: more ∧ d ∈ Nat.toDigits 16 g.toNat := by
  obtain ⟨d, ds, hds⟩ := List.exists_cons_of_ne_nil (Nat.toDigits_ne_nil (b := 16) (n := g.toNat))
  have hd : d ∈ Nat.toDigits 16 g.toNat := hds ▸ List.mem_cons_self
  cases gs with
  | nil => exact ⟨d, ds, by simp [groupChars, hds], hd⟩
  | cons g' gs => exact ⟨d, ds ++ ':' :: groupChars (g' :: gs), by rw [groupChars_cons, hds]; rfl, hd⟩

theorem splitOn_groupChars {gs : List UInt16} (h : gs ≠ []) :
    (groupChars gs).splitOn ':' = gs.map fun g => Nat.toDigits 16 g.toNat := by
  refine List.splitOn_intercalate ':' (fun part hpart => ?_) (by simpa using h)
  obtain ⟨n, -, rfl⟩ := List.mem_map.1 hpart
  exact not_mem_toDigits_sixteen rfl _

theorem groups?_map (mixed : Bool) (gs : List UInt16) :
    groups? mixed (gs.map fun g => Nat.toDigits 16 g.toNat) = some gs := by
  induction gs with
  | nil => rfl
  | cons g gs ih =>
    cases gs with
    | nil => simp [groups?, group?_toDigits]
    | cons g' gs =>
      simp only [List.map_cons] at ih ⊢
      simp [groups?, group?_toDigits, ih]

theorem part?_groupChars (mixed : Bool) (gs : List UInt16) :
    part? mixed (groupChars gs) = some gs := by
  cases gs with
  | nil => rfl
  | cons g gs =>
    obtain ⟨d, more, hchars, -⟩ := exists_groupChars g gs
    have hne : (groupChars (g :: gs)).isEmpty = false := by rw [hchars]; rfl
    simp only [part?, hne, Bool.false_eq_true, if_false, splitOn_groupChars (List.cons_ne_nil g gs),
      groups?_map]

/-! ## Two colons -/

theorem aroundGap?_cons {c : Char} {cs : List Char} (h : ¬(c = ':' ∧ cs.head? = some ':')) :
    aroundGap? (c :: cs) = (aroundGap? cs).map fun (before, after) => (c :: before, after) := by
  rw [aroundGap?]
  rintro rest rfl rfl
  exact h ⟨rfl, rfl⟩

/-- A text without a colon is no part of a gap. -/
theorem aroundGap?_append_of_not_mem {ds : List Char} (h : ':' ∉ ds) (cs : List Char) :
    aroundGap? (ds ++ cs) = (aroundGap? cs).map fun (before, after) => (ds ++ before, after) := by
  induction ds with
  | nil => simp
  | cons d ds ih =>
    simp only [List.mem_cons, not_or] at h
    rw [List.cons_append, aroundGap?_cons (fun hgap => h.1 hgap.1.symm), ih h.2, Option.map_map]
    rfl

/-- There is no gap among numbers, so the first one is in what follows them. -/
theorem aroundGap?_append (gs : List UInt16) (cs : List Char) :
    aroundGap? (groupChars gs ++ cs) =
      (aroundGap? cs).map fun (before, after) => (groupChars gs ++ before, after) := by
  have hcolon : ∀ n : Nat, ':' ∉ Nat.toDigits 16 n := not_mem_toDigits_sixteen rfl
  induction gs with
  | nil => simp [groupChars]
  | cons g gs ih =>
    cases gs with
    | nil => simpa [groupChars] using aroundGap?_append_of_not_mem (hcolon g.toNat) cs
    | cons g' gs =>
      have hhead : (groupChars (g' :: gs) ++ cs).head? ≠ some ':' := by
        obtain ⟨d, more, hchars, hd⟩ := exists_groupChars g' gs
        rw [hchars, List.cons_append, List.head?_cons]
        rintro ⟨⟩
        exact hcolon g'.toNat hd
      rw [groupChars_cons, List.append_assoc, aroundGap?_append_of_not_mem (hcolon g.toNat),
        List.cons_append, aroundGap?_cons (fun hgap => hhead hgap.2), ih, Option.map_map,
        Option.map_map]
      congr 1
      funext x
      simp

theorem aroundGap?_groupChars (gs : List UInt16) : aroundGap? (groupChars gs) = none := by
  simpa [aroundGap?] using aroundGap?_append gs []

/-! ## The run that is left out -/

theorem take_zeroRun (gs : List UInt16) :
    gs.take (zeroRun gs) = List.replicate (zeroRun gs) 0 := by
  induction gs with
  | nil => rfl
  | cons g gs ih =>
    by_cases hg : g = 0
    · have hrun : zeroRun (g :: gs) = zeroRun gs + 1 := by simp [zeroRun, hg]
      rw [hrun, List.take_succ_cons, List.replicate_succ, ih, hg]
    · have hrun : zeroRun (g :: gs) = 0 := by simp [zeroRun, hg]
      rw [hrun]
      rfl

/-- What the longest run covers are zeros. -/
theorem longestRun_eq (start : Nat) (gs : List UInt16) : ∃ i, (longestRun start gs).1 = start + i ∧
    i + (longestRun start gs).2 ≤ gs.length ∧
    (gs.drop i).take (longestRun start gs).2 = List.replicate (longestRun start gs).2 0 := by
  induction gs generalizing start with
  | nil => exact ⟨0, rfl, Nat.le_refl _, rfl⟩
  | cons g gs ih =>
    obtain ⟨i, hstart, hle, hzeros⟩ := ih (start + 1)
    simp only [longestRun]
    split
    · refine ⟨i + 1, by omega, ?_, hzeros⟩
      rw [List.length_cons]
      omega
    · refine ⟨0, rfl, ?_, take_zeroRun _⟩
      rw [Nat.zero_add]
      exact (List.takeWhile_sublist _).length_le

/-- The numbers before and after the longest run, with the zeros of it between them, are all numbers. -/
theorem around_longestRun {gs : List UInt16} {start length : Nat} (h : longestRun 0 gs = (start, length)) :
    start + length ≤ gs.length ∧
      gs.take start ++ List.replicate length 0 ++ gs.drop (start + length) = gs := by
  obtain ⟨i, hstart, hle, hzeros⟩ := longestRun_eq 0 gs
  rw [h] at hstart hle hzeros
  obtain rfl : start = i := by simpa using hstart
  refine ⟨hle, ?_⟩
  rw [← hzeros, List.append_assoc, ← List.drop_drop, List.take_append_drop, List.take_append_drop]

/-! ## Eight numbers -/

theorem eight?_toList (host : Vector UInt16 8) : eight? host.toList = some host := by
  have hsize : host.toList.toArray.size = 8 := by simp
  rw [eight?, dif_pos hsize]
  exact congrArg some (Vector.toArray_inj.1 Vector.toArray_toList)

theorem eq_of_wrapped? {gs : List UInt16} {o : Octets} (h : wrapped? gs = some o) :
    gs = [0, 0, 0, 0, 0, 0xFFFF, joined o.a o.b, joined o.c o.d] := by
  unfold wrapped? at h
  split at h
  · cases h
    simp only [joined_high_low]
  · cases h

/-- A host of eight numbers is read from its text. -/
theorem host?_hostChars (host : Vector UInt16 8) : host? (hostChars host.toList) = some host := by
  have hlength : host.toList.length = 8 := by simp
  unfold hostChars
  cases hwrapped : wrapped? host.toList with
  | some o =>
    have hgap : aroundGap? (':' :: ':' :: groupChars [0xFFFF] ++ ':' :: octetChars o) =
        some ([], groupChars [0xFFFF] ++ ':' :: octetChars o) := rfl
    have hcolon : ':' ∉ groupChars [0xFFFF] := by decide
    have hsplit : (groupChars [0xFFFF] ++ ':' :: octetChars o).splitOn ':' =
        [groupChars [0xFFFF], octetChars o] := by
      rw [List.splitOn_append_cons_self, List.splitOn_eq_singleton hcolon,
        List.splitOn_eq_singleton (not_mem_octetChars rfl (by decide) o)]
      rfl
    have hfirst : group? (groupChars [0xFFFF]) = some 0xFFFF := by decide
    have htail : part? true (groupChars [0xFFFF] ++ ':' :: octetChars o) =
        some [0xFFFF, joined o.a o.b, joined o.c o.d] := by
      simp [part?, hsplit, groups?, hfirst, group?_octetChars, octets?_octetChars]
    have height := eight?_toList host
    rw [eq_of_wrapped? hwrapped] at height
    simp only [host?, hgap, htail]
    simpa [part?, List.replicate] using height
  | none =>
    cases hrun : longestRun 0 host.toList with
    | mk start length =>
      obtain ⟨hle, haround⟩ := around_longestRun hrun
      simp only
      split
      · next hlong =>
        have hgap : aroundGap? (groupChars (host.toList.take start) ++
            ':' :: ':' :: groupChars (host.toList.drop (start + length))) =
              some (groupChars (host.toList.take start),
                groupChars (host.toList.drop (start + length))) := by
          rw [aroundGap?_append]
          simp [aroundGap?]
        have hfew : (host.toList.take start).length + (host.toList.drop (start + length)).length =
            8 - length := by
          rw [List.length_take, List.length_drop]
          omega
        have hmissing : 8 - (8 - length) = length := by omega
        have hroom : 8 - length ≤ 7 := by omega
        simp only [host?, hgap, part?_groupChars, bind, Option.bind, hfew, hroom, if_true, hmissing,
          haround, eight?_toList]
      · have hne : host.toList ≠ [] := by
          intro hnil
          rw [hnil] at hlength
          cases hlength
        simp only [host?, aroundGap?_groupChars, splitOn_groupChars hne, groups?_map, bind,
          Option.bind, eight?_toList]

/-! ## Addresses -/

/-- A part of a text that lacks a mark ends where the mark is. -/
theorem takeWhile_ne_append {c : Char} {cs rest : List Char} (hcs : c ∉ cs)
    (hrest : ∀ x ∈ rest.head?, x = c) : (cs ++ rest).takeWhile (· ≠ c) = cs := by
  have hpos : ∀ x ∈ cs, decide (x ≠ c) = true := by
    intro x hx
    refine decide_eq_true ?_
    rintro rfl
    exact hcs hx
  rw [List.takeWhile_append_of_pos hpos]
  cases rest with
  | nil => simp
  | cons x rest => simp [hrest x rfl]

theorem not_mem_hostChars {c : Char} (hten : c.isDigit = false) (hsixteen : Text.hexDigitValue? c = none)
    (hpoint : c ≠ '.') (hcolon : c ≠ ':') (gs : List UInt16) : c ∉ hostChars gs := by
  have hgroups : ∀ gs, c ∉ groupChars gs := not_mem_groupChars hsixteen hcolon
  unfold hostChars
  split
  · next o _ => simp [hgroups, hcolon, not_mem_octetChars hten hpoint o]
  · split
    split
    · simp [hgroups, hcolon]
    · exact hgroups gs

/-- The number after a percent sign, which is left out if it is zero. -/
def zoneChars (scope : UInt32) : List Char := if scope = 0 then [] else '%' :: Nat.toDigits 10 scope.toNat

theorem zone?_zoneChars (scope : UInt32) : zone? (zoneChars scope) = some scope := by
  unfold zoneChars
  split
  · next hzero => rw [hzero]; rfl
  · simp [zone?, decimal?_toDigits scope.toNat_lt]

theorem not_mem_zoneChars {c : Char} (hten : c.isDigit = false) (hpercent : c ≠ '%') (scope : UInt32) :
    c ∉ zoneChars scope := by
  unfold zoneChars
  split
  · exact List.not_mem_nil
  · simp [hpercent, not_mem_toDigits_ten hten]

/-- Every address is read from its text. -/
theorem ofString?_render (a : SocketAddress) : ofString? a.render = some a := by
  cases a with
  | v4 host port =>
    have hcolon : ':' ∉ octetChars host := not_mem_octetChars rfl (by decide) host
    have hhost : (octetChars host ++ ':' :: Nat.toDigits 10 port.toNat).takeWhile (· ≠ ':') =
        octetChars host := takeWhile_ne_append hcolon (by simp)
    simp only [ofString?, render, String.toList_ofList]
    unfold ofChars?
    split
    · next cs heq =>
      -- The text starts with a digit, and not with a bracket.
      have hbracket : '[' ∉ octetChars host := not_mem_octetChars rfl (by decide) host
      cases hchars : octetChars host with
      | nil =>
        rw [hchars] at heq
        cases heq
      | cons c rest =>
        rw [hchars] at heq
        cases heq
        exact absurd (hchars ▸ List.mem_cons_self) hbracket
    · simp only [hhost, List.drop_left, octets?_octetChars, port?_toDigits]
      rfl
  | v6 host scope port =>
    have hinside : (hostChars host.toList ++ zoneChars scope ++
        ']' :: ':' :: Nat.toDigits 10 port.toNat).takeWhile (· ≠ ']') =
          hostChars host.toList ++ zoneChars scope := by
      refine takeWhile_ne_append ?_ (by simp)
      have hnothost : ']' ∉ hostChars host.toList := not_mem_hostChars rfl rfl (by decide) (by decide) _
      simp [hnothost, not_mem_zoneChars]
    have hhost : (hostChars host.toList ++ zoneChars scope).takeWhile (· ≠ '%') =
        hostChars host.toList := by
      refine takeWhile_ne_append (not_mem_hostChars rfl rfl (by decide) (by decide) _) ?_
      unfold zoneChars
      split <;> simp
    have hrender : (v6 host scope port).render.toList =
        '[' :: (hostChars host.toList ++ zoneChars scope ++ ']' :: ':' :: Nat.toDigits 10 port.toNat) := by
      simp [render, zoneChars]
    rw [ofString?, hrender]
    simp only [ofChars?, hinside, hhost, List.drop_left, host?_hostChars, zone?_zoneChars,
      port?_toDigits]
    rfl

theorem keeps_codec (a : SocketAddress) : codec.Keeps a where
  distinct := trivial
  reads s d h := by
    cases h
    simp [codec, Codec.textAs, literal_plain, ofString?_render, bind, Except.bind, pure, Except.pure]

theorem retentive_codec : codec.Retentive := fun _ _ a _ => keeps_codec a

end SocketAddress

end TaskSwarm
