/-
Texts from which the value comes back.

The scanner takes in the shape of a text as it was written, so whether a value
comes back hangs on two things: its numbers, of which the whole ones of 64 bits
always do (`numberTree_int`) and a double does if its digits lead back to it, and
how deep it is nested, since a reader enters only so many levels of a text. With
both the tree of the text stands for the value (`conveys_tree`). A value that is
nested deeper is not taken in (`depth_lt_of_toJson`).

Whatever a text holds, there is no bare word in its tree (`wordless_scan`).
-/
import TaskSwarm.Proofs.Document.Conveyed
import TaskSwarm.Proofs.Json.Scanner

set_option autoImplicit false

namespace TaskSwarm

/-! ## Whole numbers -/

namespace Numeral

theorem le_ofDigitChars (cs : List Char) (word : Nat) : word ≤ Nat.ofDigitChars 10 cs word := by
  induction cs generalizing word with
  | nil => exact Nat.le_refl _
  | cons c cs ih =>
    rw [Nat.ofDigitChars_cons]
    exact Nat.le_trans (by omega) (ih _)

/-- Digits whose value fits a word are all gathered. -/
theorem gather_of_lt {cs : List Char} {word : Nat} (h : Nat.ofDigitChars 10 cs word < wordBound) :
    gather word cs = (Nat.ofDigitChars 10 cs word, []) := by
  induction cs generalizing word with
  | nil => rfl
  | cons c cs ih =>
    have hnext : word * 10 + digitValue c = 10 * word + (c.toNat - '0'.toNat) := by
      rw [Nat.mul_comm]
      rfl
    rw [Nat.ofDigitChars_cons] at h ⊢
    have hlt := Nat.lt_of_le_of_lt (le_ofDigitChars cs _) h
    simp only [gather, hnext, if_pos hlt]
    exact ih h

theorem gather_toDigits {n : Nat} (h : n < wordBound) : gather 0 (Nat.toDigits 10 n) = (n, []) := by
  have hvalue : Nat.ofDigitChars 10 (Nat.toDigits 10 n) 0 = n := Nat.ofDigitChars_ten_toDigits
  rw [gather_of_lt (by rwa [hvalue]), hvalue]

end Numeral

namespace Json

open Decimal (IsDigits IsWhole)

/-- Digits are read as a numeral without point and exponent. -/
theorem scanNumber_toDigits (negative : Bool) (n : Nat) :
    scanNumber negative (Nat.toDigits 10 n) =
      (numeralTree ⟨negative, Nat.toDigits 10 n, none, none⟩, []) := by
  have hspan : Decimal.spanDigits (Nat.toDigits 10 n) = (Nat.toDigits 10 n, []) := by
    have h := @spanDigits_append _ [] (Decimal.isDigits_toDigits n).isDigit nofun
    rwa [List.append_nil] at h
  have hwhole := Decimal.isWhole_toDigits n
  obtain ⟨d, ds, hds⟩ := List.exists_cons_of_ne_nil hwhole.ne_nil
  -- The digits are not refused for a needless zero; the matches below are decided by this.
  have hzero : ∀ d' ds', d :: ds ≠ '0' :: d' :: ds' := by
    intro d' ds' heq
    refine hwhole.head_ne_zero ?_ ?_ <;> rw [hds, heq] <;> simp
  unfold scanNumber
  rw [hspan, hds]
  simp only
  rfl

theorem numberTree_ofNat {n : Nat} (h : n < Numeral.wordBound) :
    numberTree (.int n) = .num (.int n) := by
  obtain ⟨d, ds, hds⟩ := List.exists_cons_of_ne_nil (Decimal.isDigits_toDigits n).ne_nil
  have hd : d.isDigit = true := (Decimal.isDigits_toDigits n).isDigit d (by simp [hds])
  have hvalue : Numeral.value ⟨false, Nat.toDigits 10 n, none, none⟩ = .ok (.int n) := by
    simp [Numeral.value, Numeral.gather_toDigits h, Numeral.isWhole]
  have htext : numberChars (.int n) = Nat.toDigits 10 n := rfl
  unfold numberTree scan
  rw [htext, hds, scanValue_digit hd, ← hds, scanNumber_toDigits]
  simp [numeralTree, hvalue]

theorem numberTree_negSucc {n : Nat} (h : n + 1 ≤ 0x8000000000000000) :
    numberTree (.int (.negSucc n)) = .num (.int (.negSucc n)) := by
  have hlt : n + 1 < Numeral.wordBound := Nat.lt_of_le_of_lt h (by decide)
  have hvalue : Numeral.value ⟨true, Nat.toDigits 10 (n + 1), none, none⟩ =
      .ok (.int (.negSucc n)) := by
    simp [Numeral.value, Numeral.gather_toDigits hlt, Numeral.isWhole, h, Int.negSucc_eq]
  have htext : numberChars (.int (.negSucc n)) = '-' :: Nat.toDigits 10 (n + 1) := rfl
  unfold numberTree scan
  rw [htext]
  simp [scanValue, skipSpace_cons, isSeparator, scanNumber_toDigits, numeralTree, hvalue]

/-- Whether a number comes back from its text. -/
def Returns : Number → Prop
  | .int n => -0x8000000000000000 ≤ n ∧ n < 0x10000000000000000
  | .real x => numberTree (.real x) = .num (.real x)

theorem numberTree_of_returns {n : Number} (h : Returns n) : numberTree n = .num n := by
  cases n with
  | real x => exact h
  | int n =>
    obtain ⟨hlow, hhigh⟩ := h
    cases n with
    | ofNat n => exact numberTree_ofNat (by simpa [Numeral.wordBound] using Int.ofNat_lt.1 hhigh)
    | negSucc n => exact numberTree_negSucc (by omega)

/-! ## Numbers and levels of a value -/

mutual

/-- Whether every number in a value comes back from its text. -/
def Legible : Json → Prop
  | .num n => Returns n
  | .arr items => LegibleItems items
  | .obj members => LegibleMembers members
  | _ => True

/-- `Legible` of each item. -/
def LegibleItems : List Json → Prop
  | [] => True
  | x :: xs => x.Legible ∧ LegibleItems xs

/-- `Legible` of the value of each member. -/
def LegibleMembers : List (String × Json) → Prop
  | [] => True
  | (_, v) :: ms => v.Legible ∧ LegibleMembers ms

end

mutual

/-- How many lists and objects of a value stand within one another. -/
def depth : Json → Nat
  | .arr items => itemsDepth items + 1
  | .obj members => membersDepth members + 1
  | _ => 0

/-- The largest `depth` of an item. -/
def itemsDepth : List Json → Nat
  | [] => 0
  | x :: xs => max x.depth (itemsDepth xs)

/-- The largest `depth` of the value of a member. -/
def membersDepth : List (String × Json) → Nat
  | [] => 0
  | (_, v) :: ms => max v.depth (membersDepth ms)

end

theorem enter_text {levels : Nat} (h : 1 < levels) :
    (Source.text levels).enter = .ok (.text (levels - 1)) := by
  simp [Source.enter, Nat.not_le.2 h]

mutual

/-- The tree of the text of a value stands for the value, to a reader who may enter all its levels. -/
theorem conveys_tree : (j : Json) → {levels : Nat} → j.Legible → j.depth < levels →
    Conveys (.text levels) j j.tree
  | .null, _, _, _ => .null _
  | .bool b, _, _, _ => .bool _ b
  | .num n, _, hnumbers, _ => by
    rw [tree, numberTree_of_returns hnumbers]
    exact .num _ n
  | .str s, _, _, _ => .str _ s
  | .arr items, _, hnumbers, hdepth => by
    rw [depth] at hdepth
    exact .arr (enter_text (by omega)) (conveysItems_itemTrees items hnumbers (by omega))
  | .obj members, _, hnumbers, hdepth => by
    rw [depth] at hdepth
    exact .obj (enter_text (by omega)) (List.Perm.refl _)
      (conveysMembers_memberTrees members hnumbers (by omega))

theorem conveysItems_itemTrees : (items : List Json) → {levels : Nat} → LegibleItems items →
    itemsDepth items < levels → ConveysItems (.text levels) items (itemTrees items)
  | [], _, _, _ => .nil _
  | x :: xs, _, hnumbers, hdepth => by
    rw [itemsDepth] at hdepth
    exact .cons (conveys_tree x hnumbers.1 (by omega))
      (conveysItems_itemTrees xs hnumbers.2 (by omega))

theorem conveysMembers_memberTrees : (members : List (String × Json)) → {levels : Nat} →
    LegibleMembers members → membersDepth members < levels →
    ConveysMembers (.text levels) members (memberTrees members)
  | [], _, _, _ => .nil _
  | (_, v) :: ms, _, hnumbers, hdepth => by
    rw [membersDepth] at hdepth
    exact .cons (conveys_tree v hnumbers.1 (by omega))
      (conveysMembers_memberTrees ms hnumbers.2 (by omega))

end

/-! ## Levels that a reader may enter -/

theorem enter_text_eq_ok_iff {levels : Nat} {inner : Source} :
    (Source.text levels).enter = .ok inner ↔ 1 < levels ∧ inner = .text (levels - 1) := by
  by_cases h : 1 < levels
  · rw [enter_text h, Except.ok.injEq, eq_comm]
    exact (and_iff_right h).symm
  · simp [Source.enter, h, Nat.not_lt.1 h]

mutual

/-- A value is taken in from its text only by a reader who may enter all its levels. -/
theorem depth_lt_of_toJson : (j : Json) → {levels : Nat} → {k : Json} → 0 < levels →
    j.tree.toJson (.text levels) = .ok k → j.depth < levels
  | .null, _, _, hpos, _ | .bool _, _, _, hpos, _ | .num _, _, _, hpos, _
  | .str _, _, _, hpos, _ => hpos
  | .arr items, _, _, _, h => by
    obtain ⟨inner, henter, h⟩ := exists_of_bind_eq_ok h
    obtain ⟨js, hitems, -⟩ := exists_of_bind_eq_ok h
    obtain ⟨hlevels, rfl⟩ := enter_text_eq_ok_iff.1 henter
    have hdepth := itemsDepth_lt_of_toItems items (by omega) hitems
    rw [depth]
    omega
  | .obj members, _, _, _, h => by
    obtain ⟨inner, henter, h⟩ := exists_of_bind_eq_ok h
    obtain ⟨js, hmembers, -⟩ := exists_of_bind_eq_ok h
    obtain ⟨hlevels, rfl⟩ := enter_text_eq_ok_iff.1 henter
    have hdepth := membersDepth_lt_of_toMembers members (by omega) hmembers
    rw [depth]
    omega

theorem itemsDepth_lt_of_toItems : (items : List Json) → {levels : Nat} → {js : List Json} →
    0 < levels → Document.toItems (.text levels) (itemTrees items) = .ok js →
    itemsDepth items < levels
  | [], _, _, hpos, _ => hpos
  | x :: xs, _, _, hpos, h => by
    obtain ⟨j, hhead, h⟩ := exists_of_bind_eq_ok h
    obtain ⟨js, htail, -⟩ := exists_of_bind_eq_ok h
    exact Nat.max_lt.2 ⟨depth_lt_of_toJson x hpos hhead, itemsDepth_lt_of_toItems xs hpos htail⟩

theorem membersDepth_lt_of_toMembers : (members : List (String × Json)) → {levels : Nat} →
    {js : List (String × Json)} → 0 < levels →
    Document.toMembers (.text levels) (memberTrees members) = .ok js → membersDepth members < levels
  | [], _, _, hpos, _ => hpos
  | (_, v) :: ms, _, _, hpos, h => by
    obtain ⟨k, -, h⟩ := exists_of_bind_eq_ok h
    obtain ⟨j, hhead, h⟩ := exists_of_bind_eq_ok h
    obtain ⟨js, htail, -⟩ := exists_of_bind_eq_ok h
    exact Nat.max_lt.2 ⟨depth_lt_of_toJson v hpos hhead, membersDepth_lt_of_toMembers ms hpos htail⟩

end

/-! ## No bare words -/

theorem wordless_numeralTree (n : Numeral) : (numeralTree n).Wordless := by
  unfold numeralTree
  split <;> trivial

theorem wordless_scanExponent (n : Numeral) (cs : List Char) : (scanExponent n cs).1.Wordless := by
  cases cs with
  | nil => exact wordless_numeralTree n
  | cons c rest =>
    simp only [scanExponent]
    split
    · split
      · trivial
      · exact wordless_numeralTree _
    · exact wordless_numeralTree n

theorem wordless_scanNumber (negative : Bool) (cs : List Char) :
    (scanNumber negative cs).1.Wordless := by
  unfold scanNumber
  simp only
  split
  · trivial
  · trivial
  · split
    · split
      · trivial
      · exact wordless_scanExponent _ _
    · exact wordless_scanExponent _ _

theorem wordless_scanName (tree : Document) (h : tree.Wordless) (word cs : List Char) :
    (scanName tree word cs).1.Wordless := by
  induction word generalizing cs with
  | nil => exact h
  | cons w ws ih =>
    cases cs with
    | nil => trivial
    | cons c cs =>
      simp only [scanName]
      split
      · exact ih cs
      · trivial

/-- What is read with some fuel has no bare words. -/
structure ScansWordless (fuel : Nat) : Prop where
  value : ∀ cs, (scanValue fuel cs).1.Wordless
  items : ∀ acc cs, (∀ d ∈ acc, d.Wordless) → (scanItems fuel acc cs).1.Wordless
  members : ∀ acc cs, (∀ m ∈ acc, m.2.Wordless) → (scanMembers fuel acc cs).1.Wordless

theorem wordless_arr {acc : List Document} (h : ∀ d ∈ acc, d.Wordless) (closing : Closing) :
    (Document.arr acc.reverse closing).Wordless :=
  Document.wordlessItems_iff.2 fun d hd => h d (List.mem_reverse.1 hd)

theorem wordless_obj {acc : List (Literal × Document)} (h : ∀ m ∈ acc, m.2.Wordless)
    (closing : Closing) : (Document.obj acc.reverse closing).Wordless :=
  Document.wordlessMembers_iff.2 fun m hm => h m (List.mem_reverse.1 hm)

theorem ScansWordless.scanValue {fuel : Nat} (ih : ScansWordless fuel) (cs : List Char) :
    (scanValue (fuel + 1) cs).1.Wordless := by
  simp only [Json.scanValue]
  split
  · trivial
  · trivial
  · split
    · trivial
    · trivial
    · exact ih.items [] _ nofun
  · split
    · trivial
    · trivial
    · exact ih.members [] _ nofun
  · exact wordless_scanName .null trivial _ _
  · exact wordless_scanName (.bool true) trivial _ _
  · exact wordless_scanName (.bool false) trivial _ _
  · exact wordless_scanNumber _ _
  · split
    · exact wordless_scanNumber _ _
    · trivial

theorem ScansWordless.scanItems {fuel : Nat} (ih : ScansWordless fuel) {acc : List Document}
    (cs : List Char) (hacc : ∀ d ∈ acc, d.Wordless) :
    (scanItems (fuel + 1) acc cs).1.Wordless := by
  have hnext : ∀ d ∈ (Json.scanValue fuel cs).1 :: acc, d.Wordless :=
    List.forall_mem_cons.2 ⟨ih.value cs, hacc⟩
  simp only [Json.scanItems]
  split
  · exact wordless_arr hnext _
  · split
    · exact wordless_arr hnext _
    · exact wordless_arr hnext _
    · split
      · exact wordless_arr hnext _
      · exact wordless_arr hnext _
      · exact ih.items _ _ hnext
    · exact wordless_arr hnext _

theorem ScansWordless.scanMembers {fuel : Nat} (ih : ScansWordless fuel)
    {acc : List (Literal × Document)} (cs : List Char) (hacc : ∀ m ∈ acc, m.2.Wordless) :
    (scanMembers (fuel + 1) acc cs).1.Wordless := by
  have hmissing : ∀ (key : Literal) cause, ∀ m ∈ (key, Document.missing cause) :: acc,
      m.2.Wordless := fun _ _ => List.forall_mem_cons.2 ⟨trivial, hacc⟩
  have hvalue : ∀ (key : Literal) rest, ∀ m ∈ (key, (Json.scanValue fuel rest).1) :: acc,
      m.2.Wordless := fun _ rest => List.forall_mem_cons.2 ⟨ih.value rest, hacc⟩
  simp only [Json.scanMembers]
  split
  · split
    · exact wordless_obj (hmissing _ _) _
    · split
      · exact wordless_obj (hmissing _ _) _
      · split
        · exact wordless_obj (hvalue _ _) _
        · split
          · exact wordless_obj (hvalue _ _) _
          · exact wordless_obj (hvalue _ _) _
          · split
            · exact wordless_obj (hvalue _ _) _
            · exact wordless_obj (hvalue _ _) _
            · exact ih.members _ _ (hvalue _ _)
          · exact wordless_obj (hvalue _ _) _
      · exact wordless_obj (hmissing _ _) _
  · exact wordless_obj hacc _

theorem scansWordless (fuel : Nat) : ScansWordless fuel := by
  -- On the fuel, since values, items and members are read in terms of one another.
  induction fuel with
  | zero =>
    exact ⟨fun _ => trivial, fun _ _ hacc => wordless_arr hacc _, fun _ _ hacc => wordless_obj hacc _⟩
  | succ fuel ih =>
    exact ⟨fun cs => ih.scanValue cs, fun _ cs hacc => ih.scanItems cs hacc,
      fun _ cs hacc => ih.scanMembers cs hacc⟩

theorem wordless_scan (cs : List Char) : (scan cs).1.Wordless := (scansWordless _).value cs

end Json

end TaskSwarm
