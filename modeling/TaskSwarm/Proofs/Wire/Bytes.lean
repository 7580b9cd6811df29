/-
Bytes as a list.

A reader looks for the first byte of some kind and cuts there. What it finds is
argued about over the list of the bytes: looking for a byte is looking for it in
the list (`findIdx?_eq`), and bytes are text if they are what some characters are
written as (`decode_eq_ok_iff_toUTF8`).
-/
import Mathlib.Data.List.TakeDrop
import TaskSwarm.Text.Utf8

set_option autoImplicit false

namespace TaskSwarm

namespace Wire

variable {a b bytes : ByteArray} {n : Nat}

/-- The bytes, one by one. -/
def listed (bytes : ByteArray) : List UInt8 := bytes.data.toList

theorem listed_append (a b : ByteArray) : listed (a ++ b) = listed a ++ listed b :=
  ByteArray.toList_data_append

theorem listed_toByteArray (l : List UInt8) : listed l.toByteArray = l := List.toList_data_toByteArray

theorem toByteArray_listed (bytes : ByteArray) : (listed bytes).toByteArray = bytes := by
  ext1
  simp [listed]

theorem listed_inj : listed a = listed b ↔ a = b :=
  ⟨fun h => by rw [← toByteArray_listed a, h, toByteArray_listed], congrArg listed⟩

theorem length_listed (bytes : ByteArray) : (listed bytes).length = bytes.size := by
  rw [← List.size_toByteArray, toByteArray_listed]

theorem listed_push (bytes : ByteArray) (b : UInt8) : listed (bytes.push b) = listed bytes ++ [b] := by
  rw [← ByteArray.append_toByteArray_singleton, listed_append, listed_toByteArray]

/-- The bytes before a place are the first ones. -/
theorem listed_extract_zero (bytes : ByteArray) (n : Nat) :
    listed (bytes.extract 0 n) = (listed bytes).take n := by
  simp [listed]

/-- The bytes from a place on are the last ones. -/
theorem listed_extract_size (bytes : ByteArray) (n : Nat) :
    listed (bytes.extract n bytes.size) = (listed bytes).drop n := by
  simp [listed]

/-! ## The first byte of some kind -/

theorem findIdx?_loop_eq (bytes : ByteArray) (p : UInt8 → Bool) (start : Nat) :
    ByteArray.findIdx?.loop bytes p start =
      (((listed bytes).drop start).findIdx? p).map (· + start) := by
  have hlength := length_listed bytes
  induction hn : bytes.size - start generalizing start with
  | zero =>
    rw [ByteArray.findIdx?.loop, dif_neg (by omega), List.drop_of_length_le (by omega)]
    rfl
  | succ n ih =>
    have hlt : start < bytes.size := by omega
    have hdrop : (listed bytes).drop start = bytes[start] :: (listed bytes).drop (start + 1) :=
      List.drop_eq_getElem_cons (by omega)
    rw [ByteArray.findIdx?.loop, dif_pos hlt, hdrop, List.findIdx?_cons]
    cases p bytes[start] with
    | true => simp
    | false =>
      rw [ih (start + 1) (by omega)]
      simp [Function.comp_def, Nat.add_assoc, Nat.add_comm 1]

/-- Who looks for a byte looks for it in the list. -/
theorem findIdx?_eq (bytes : ByteArray) (p : UInt8 → Bool) :
    bytes.findIdx? p = (listed bytes).findIdx? p := by
  refine (findIdx?_loop_eq bytes p 0).trans ?_
  simp

theorem findIdx?_eq_none_iff {b : UInt8} : bytes.findIdx? (· = b) = none ↔ b ∉ listed bytes := by
  rw [findIdx?_eq, List.findIdx?_eq_none_iff]
  simp only [decide_eq_false_iff_not]
  exact ⟨fun h hb => h b hb rfl, fun h c hc => fun heq => h (heq ▸ hc)⟩

/-- The place of the first byte of some value is the number of bytes before it. -/
theorem findIdx?_eq_some_iff {b : UInt8} : bytes.findIdx? (· = b) = some n ↔
    ∃ before after, listed bytes = before ++ b :: after ∧ b ∉ before ∧ before.length = n := by
  rw [findIdx?_eq]
  constructor
  · intro h
    obtain ⟨hlt, hat, hbefore⟩ := List.findIdx?_eq_some_iff_getElem.1 h
    refine ⟨(listed bytes).take n, (listed bytes).drop (n + 1), ?_, ?_,
      List.length_take_of_le (Nat.le_of_lt hlt)⟩
    · rw [← of_decide_eq_true hat, ← List.drop_eq_getElem_cons hlt, List.take_append_drop]
    · intro hmem
      obtain ⟨i, hi, heq⟩ := List.mem_take_iff_getElem.1 hmem
      exact hbefore i (by omega) (decide_eq_true heq)
  · rintro ⟨before, after, hlist, hbefore, rfl⟩
    have hnone : before.findIdx? (fun c => decide (c = b)) = none :=
      List.findIdx?_eq_none_iff.2 fun c hc => decide_eq_false fun heq => hbefore (heq ▸ hc)
    simp [hlist, List.findIdx?_append, hnone, List.findIdx?_cons]

/-! ## Text -/

/-- The bytes of characters, one by one. -/
theorem listed_utf8Encode (cs : List Char) :
    listed cs.utf8Encode = cs.flatMap String.utf8EncodeChar := by
  rw [List.utf8Encode, listed_toByteArray]

theorem listed_toUTF8 (s : String) : listed s.toUTF8 = s.toList.flatMap String.utf8EncodeChar := by
  rw [String.toUTF8_eq_toByteArray, ← listed_utf8Encode, ← String.toByteArray_ofList,
    String.ofList_toList]

theorem decode_toUTF8 (s : String) : Text.decode s.toUTF8 = .ok s := by
  rw [Text.decode_eq_ok_iff, String.toUTF8_eq_toByteArray, String.fromUTF8?]
  rw [dif_pos s.isValidUTF8]
  rfl

/-- Bytes are read as a text if they are what it is written as. -/
theorem decode_eq_ok_iff_toUTF8 {s : String} : Text.decode bytes = .ok s ↔ bytes = s.toUTF8 := by
  refine ⟨fun h => ?_, fun h => h ▸ decode_toUTF8 s⟩
  rw [Text.decode_eq_ok_iff, String.fromUTF8?] at h
  split at h
  · cases h
    rfl
  · cases h

/-- Characters whose bytes begin the bytes of others are the first of those. -/
theorem prefix_of_encoded {xs ys : List Char}
    (h : xs.flatMap String.utf8EncodeChar <+: ys.flatMap String.utf8EncodeChar) : xs <+: ys := by
  induction xs generalizing ys with
  | nil => exact List.nil_prefix
  | cons x xs ih =>
    obtain ⟨rest, hrest⟩ := h
    cases ys with
    | nil =>
      have hpos := String.length_utf8EncodeChar x
      have hsize := x.utf8Size_pos
      simp only [List.flatMap_cons, List.flatMap_nil, List.append_assoc,
        List.append_eq_nil_iff] at hrest
      rw [hrest.1] at hpos
      simp at hpos
      omega
    | cons y ys =>
      rw [List.flatMap_cons, List.flatMap_cons, List.append_assoc] at hrest
      -- The first character of some bytes is the one their beginning is decoded as.
      have hfirst : ∀ (z : Char) (tail : List UInt8),
          (String.utf8EncodeChar z ++ tail).toByteArray.utf8DecodeChar? 0 = some z := by
        intro z tail
        rw [List.toByteArray_append]
        exact ByteArray.utf8DecodeChar?_utf8EncodeChar_append
      have hsame : some x = some y := by
        rw [← hfirst x, hrest, hfirst y]
      cases hsame
      have htail := List.append_cancel_left hrest
      exact List.cons_prefix_cons.2 ⟨rfl, ih ⟨rest, htail⟩⟩

end Wire

end TaskSwarm
