/-
File frames and their names.

The name of a frame has an id of a proposal before its first slash and one ordinary
name after it, or it is refused (`splitName_eq_ok_iff`). Bytes are read as a frame if
they are its name, a NUL and its body, and not too many of them (`read_eq_ok_iff`): no
NUL is in the name, so the first one ends it. A frame and its bytes therefore stand for
each other (`frames_invertible`).
-/
import Mathlib.Data.List.TakeDrop
import TaskSwarm.Proofs.Files.Path
import TaskSwarm.Proofs.Wire.Line
import TaskSwarm.Wire.FileFrame

set_option autoImplicit false

namespace TaskSwarm.FileFrame

variable {frame : FileFrame} {name id file : String} {bytes : ByteArray}

/-! ## Names -/

theorem toList_joinName : (joinName id file).toList = id.toList ++ '/' :: file.toList := by
  show (id ++ "/" ++ file).toList = _
  simp

theorem joinName_right_inj {n : String} : joinName id file = joinName id n ↔ file = n := by
  rw [← String.toList_inj, toList_joinName, toList_joinName, List.append_cancel_left_eq,
    List.cons_inj_right, String.toList_inj]

/-- A name is taken apart at its first slash, if an id and one ordinary name are what it is made of. -/
theorem splitName_eq_ok_iff : splitName name = .ok (id, file) ↔
    name = joinName id file ∧ Identifier.isValid id = true ∧ Path.isOneName file = true := by
  unfold splitName
  rw [List.span_eq_takeWhile_dropWhile]
  constructor
  · intro h
    split at h
    · cases h
    · next front c back hspan =>
      obtain ⟨hfront, hback⟩ := Prod.mk.inj hspan
      simp only at h
      split at h
      · next hvalid =>
        cases h
        rw [Bool.and_eq_true] at hvalid
        refine ⟨?_, hvalid⟩
        have hslash : c = '/' := by
          have hne : name.toList.dropWhile (fun x => decide (x ≠ '/')) ≠ [] := by
            rw [hback]
            exact List.cons_ne_nil _ _
          have hhead := List.head_dropWhile_not (fun x => decide (x ≠ '/')) hne
          simp only [hback, List.head_cons] at hhead
          simpa using hhead
        rw [← String.toList_inj, toList_joinName, String.toList_ofList, String.toList_ofList,
          ← hslash, ← hback, ← hfront, List.takeWhile_append_dropWhile]
      · cases h
  · rintro ⟨rfl, hvalid, hone⟩
    have hid : ∀ c ∈ id.toList, decide (c ≠ '/') = true := by
      intro c hmem
      refine decide_eq_true ?_
      rintro rfl
      exact (Identifier.isOrdinary_of_isValid hvalid).no_slash hmem
    rw [toList_joinName, List.takeWhile_append_of_pos hid, List.dropWhile_append_of_pos hid]
    simp [hvalid, hone]

/-- A frame of a proposal with a valid id is taken apart into that id and the name of the file. -/
theorem splitName_joinName {n : String} (hid : Identifier.isValid id = true)
    (hn : Path.IsOrdinary n) : splitName (joinName id n) = .ok (id, n) :=
  splitName_eq_ok_iff.2 ⟨rfl, hid, hn.isOneName⟩

/-- Whatever a frame of a proposal is taken apart into, it is the id and the name it was made of. -/
theorem eq_of_splitName_joinName {n id' : String} (hn : Path.IsOrdinary n)
    (h : splitName (joinName id n) = .ok (id', file)) : id' = id ∧ file = n := by
  obtain ⟨hname, hid', hone⟩ := splitName_eq_ok_iff.1 h
  have hchars := congrArg String.toList hname
  rw [toList_joinName, toList_joinName] at hchars
  obtain ⟨rest, hlonger, hrest⟩ | ⟨rest, hlonger, hrest⟩ := List.append_eq_append_iff.1 hchars
  · cases rest with
    | nil =>
      have hfile : n.toList = file.toList := List.cons_inj_right _ |>.1 hrest
      exact ⟨String.toList_inj.1 (by simpa using hlonger), (String.toList_inj.1 hfile).symm⟩
    | cons c rest =>
      -- The id that was found would have a slash in it.
      obtain rfl : '/' = c := (List.cons.inj hrest).1
      refine absurd ?_ (Identifier.isOrdinary_of_isValid hid').no_slash
      rw [hlonger]
      exact List.mem_append_right _ List.mem_cons_self
  · cases rest with
    | nil =>
      have hfile : file.toList = n.toList := List.cons_inj_right _ |>.1 hrest
      exact ⟨String.toList_inj.1 (by simpa using hlonger.symm), String.toList_inj.1 hfile⟩
    | cons c rest =>
      -- The name that was found would be more than one.
      have hfile : file.toList = rest ++ '/' :: n.toList := (List.cons.inj hrest).2
      have hsplit : file = String.ofList rest ++ "/" ++ n := by
        rw [← String.toList_inj, hfile]
        simp
      rw [hsplit, Path.not_isOneName_of_slash hn] at hone
      cases hone

/-! ## Bytes -/

theorem write_eq_ok_iff : frame.write = .ok bytes ↔
    frame.name ≠ "" ∧ '\x00' ∉ frame.name.toList ∧
      bytes = frame.name.toUTF8.push 0 ++ frame.body := by
  unfold write
  split
  · next h =>
    simp only [Bool.or_eq_true, String.isEmpty_iff, List.contains_iff_mem] at h
    refine ⟨nofun, ?_⟩
    rintro ⟨hempty, hnul, -⟩
    exact absurd h (by simp [hempty, hnul])
  · next h =>
    simp only [Bool.or_eq_true, String.isEmpty_iff, List.contains_iff_mem, not_or] at h
    simp only [Except.ok.injEq]
    refine ⟨?_, fun h => h.2.2.symm⟩
    rintro rfl
    exact ⟨h.1, h.2, rfl⟩

theorem size_of_write (h : frame.write = .ok bytes) :
    bytes.size = frame.name.utf8ByteSize + 1 + frame.body.size := by
  obtain ⟨-, -, rfl⟩ := write_eq_ok_iff.1 h
  rw [ByteArray.size_append, ByteArray.size_push, String.toUTF8_eq_toByteArray,
    String.size_toByteArray]

theorem listed_bytes (name : String) (body : ByteArray) :
    Wire.listed (name.toUTF8.push 0 ++ body) =
      Wire.listed name.toUTF8 ++ 0 :: Wire.listed body := by
  rw [Wire.listed_append, Wire.listed_push, List.append_assoc, List.singleton_append]

theorem zero_mem_listed_iff : 0 ∈ Wire.listed name.toUTF8 ↔ '\x00' ∈ name.toList :=
  Wire.ascii_mem_listed_iff '\x00' (by decide)

/-- A frame is read from its name, a NUL and its body, the name without a NUL, and from nothing else. -/
theorem read_eq_ok_iff : read bytes = .ok frame ↔ bytes.size ≤ Wire.maxMessageSize ∧
    '\x00' ∉ frame.name.toList ∧ bytes = frame.name.toUTF8.push 0 ++ frame.body := by
  unfold read
  constructor
  · intro h
    split at h
    · cases h
    next hsize =>
    split at h
    · cases h
    next nul hnul =>
    split at h
    · cases h
    next name hname =>
    cases h
    obtain ⟨before, after, hlist, hbefore, rfl⟩ := Wire.findIdx?_eq_some_iff.1 hnul
    have hfront : Wire.listed name.toUTF8 = before := by
      rw [← Wire.decode_eq_ok_iff_toUTF8.1 hname, Wire.listed_extract_zero, hlist,
        List.take_left']
      rfl
    have hback : Wire.listed (bytes.extract (before.length + 1) bytes.size) = after := by
      rw [Wire.listed_extract_size, hlist, List.drop_append, List.drop_of_length_le (by omega)]
      simp
    refine ⟨Nat.not_lt.1 hsize, fun hmem => hbefore (hfront ▸ zero_mem_listed_iff.2 hmem), ?_⟩
    rw [← Wire.listed_inj, listed_bytes, hlist, hfront, hback]
  · rintro ⟨hsize, hname, hbytes⟩
    have hlist : Wire.listed bytes =
        Wire.listed frame.name.toUTF8 ++ 0 :: Wire.listed frame.body := by
      rw [hbytes, listed_bytes]
    have hfind : bytes.findIdx? (· = 0) = some (Wire.listed frame.name.toUTF8).length :=
      Wire.findIdx?_eq_some_iff.2 ⟨_, _, hlist, fun h => hname (zero_mem_listed_iff.1 h), rfl⟩
    have hfront : bytes.extract 0 (Wire.listed frame.name.toUTF8).length = frame.name.toUTF8 := by
      rw [← Wire.listed_inj, Wire.listed_extract_zero, hlist, List.take_left']
      rfl
    have hback : bytes.extract ((Wire.listed frame.name.toUTF8).length + 1) bytes.size =
        frame.body := by
      rw [← Wire.listed_inj, Wire.listed_extract_size, hlist, List.drop_append,
        List.drop_of_length_le (by omega)]
      simp
    rw [if_neg (Nat.not_lt.2 hsize), hfind]
    simp only [hfront, hback, Wire.decode_toUTF8]

/-- Whatever cannot be read as a frame is refused by the protocol. -/
theorem read_cases (bytes : ByteArray) :
    (∃ frame, read bytes = .ok frame) ∨ ∃ fault, read bytes = .error (.protocol fault) := by
  unfold read
  split
  · exact .inr ⟨_, rfl⟩
  split
  · exact .inr ⟨_, rfl⟩
  split
  · exact .inr ⟨_, rfl⟩
  · exact .inl ⟨_, rfl⟩

theorem read_of_gt (h : Wire.maxMessageSize < bytes.size) :
    read bytes = .error (.protocol (.frameTooLarge (Wire.maxMessageSize + 1))) := by
  rw [read, if_pos h]

/-- What was written is read back, unless there is too much of it. -/
theorem read_of_write (h : frame.write = .ok bytes) :
    read bytes = if Wire.maxMessageSize < bytes.size then
      .error (.protocol (.frameTooLarge (Wire.maxMessageSize + 1))) else .ok frame := by
  split
  · next hgt => exact read_of_gt hgt
  · next hle => exact read_eq_ok_iff.2 ⟨Nat.not_lt.1 hle, (write_eq_ok_iff.1 h).2⟩

/-- Frames and the bytes they are written as stand for each other. A frame is written if its
name is one that can be told from its body, and it is read back unless there is too much of it.
Bytes that are not too many are read as the one frame that they are the name, a NUL and the body
of, and otherwise refused. -/
theorem frames_invertible :
    (∀ frame : FileFrame, (∃ bytes, frame.write = .ok bytes) ↔
      frame.name ≠ "" ∧ '\x00' ∉ frame.name.toList) ∧
    (∀ (frame : FileFrame) (bytes : ByteArray), frame.write = .ok bytes →
      (read bytes = .ok frame ↔ bytes.size ≤ Wire.maxMessageSize) ∧
      (Wire.maxMessageSize < bytes.size →
        read bytes = .error (.protocol (.frameTooLarge (Wire.maxMessageSize + 1))))) ∧
    ∀ bytes : ByteArray, bytes.size ≤ Wire.maxMessageSize →
      (∀ frame, read bytes = .ok frame ↔
        bytes = frame.name.toUTF8.push 0 ++ frame.body ∧ '\x00' ∉ frame.name.toList) ∧
      ((∃ frame, read bytes = .ok frame) ∨ ∃ fault, read bytes = .error (.protocol fault)) := by
  refine ⟨fun frame => ?_, fun frame bytes hwrite => ⟨?_, read_of_gt⟩,
    fun bytes hsize => ⟨fun frame => ?_, read_cases bytes⟩⟩
  · constructor
    · rintro ⟨bytes, h⟩
      obtain ⟨hempty, hnul, -⟩ := write_eq_ok_iff.1 h
      exact ⟨hempty, hnul⟩
    · rintro ⟨hempty, hnul⟩
      exact ⟨_, write_eq_ok_iff.2 ⟨hempty, hnul, rfl⟩⟩
  · rw [read_eq_ok_iff]
    exact and_iff_left (write_eq_ok_iff.1 hwrite).2
  · rw [read_eq_ok_iff]
    exact ⟨fun h => ⟨h.2.2, h.2.1⟩, fun h => ⟨hsize, h.2, h.1⟩⟩

/-- A NUL and a byte of no text in a body come back, the largest frame and one byte is too much,
a name may be empty where it is read, and no bytes at all are no frame. -/
theorem frames_invertible_at :
    read (("é".toUTF8.push 0) ++ ⟨#[0, 255]⟩) = .ok ⟨"é", ⟨#[0, 255]⟩⟩ ∧
    (∃ bytes, (⟨"é", ⟨.replicate Wire.maxMessageSize 0⟩⟩ : FileFrame).write = .ok bytes ∧
      read bytes = .error (.protocol (.frameTooLarge 16777217))) ∧
    read ⟨#[0, 255]⟩ = .ok ⟨"", ⟨#[255]⟩⟩ ∧
    ∃ fault, read .empty = .error (.protocol fault) := by
  obtain ⟨written, returned, reads⟩ := frames_invertible
  refine ⟨?_, ?_, ?_, ?_⟩
  · obtain ⟨bytes, hwrite⟩ := (written ⟨"é", ⟨#[0, 255]⟩⟩).2 ⟨by decide, by decide⟩
    obtain rfl := (write_eq_ok_iff.1 hwrite).2.2
    exact (returned _ _ hwrite).1.2 (by decide)
  · obtain ⟨bytes, hwrite⟩ := (written ⟨"é", ⟨.replicate Wire.maxMessageSize 0⟩⟩).2
      ⟨by simp, by simp⟩
    refine ⟨bytes, hwrite, (returned _ _ hwrite).2 ?_⟩
    rw [size_of_write hwrite]
    simp only [ByteArray.size, Array.size_replicate]
    omega
  · exact ((reads ⟨#[0, 255]⟩ (by decide)).1 ⟨"", ⟨#[255]⟩⟩).2 ⟨by decide, by decide⟩
  · obtain ⟨frame, hread⟩ | hfault := (reads .empty (by decide)).2
    · have hsize := congrArg ByteArray.size (((reads .empty (by decide)).1 frame).1 hread).1
      rw [ByteArray.size_append, ByteArray.size_push, ByteArray.size_empty] at hsize
      omega
    · exact hfault

end TaskSwarm.FileFrame
