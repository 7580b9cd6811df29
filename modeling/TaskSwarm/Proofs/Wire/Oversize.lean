/-
Lines that are too long.

A reader sees the first `maxMessageSize + 1` bytes of a line and no others
(`readFirst_eq`). A line that is not too long is therefore read as it is. Of a line
that is too long the reader has one byte too many, and says so if what it has is a
text. That depends on where the characters of the line begin: the line is told to be
too long if one of them begins just where the reader stops (`DividesAtLimit`), and
otherwise the reader finds half a character and says that there is no text
(`oversize_told`).
-/
import TaskSwarm.Proofs.Wire.Line

set_option autoImplicit false

namespace TaskSwarm.Wire

variable {α : Type} {c : Codec α} {bytes line : ByteArray} {text : String}

/-! ## The first line -/

/-- The first line of a stream, its line break included. -/
def firstLine (bytes : ByteArray) : ByteArray := bytes.extract 0 (lineLength bytes 0 bytes.size)

theorem listed_firstLine (bytes : ByteArray) : listed (firstLine bytes) =
    (listed bytes).take (((listed bytes).takeWhile (· ≠ newline)).length + 1) := by
  rw [firstLine, listed_extract_zero, lineLength_eq (Nat.le_refl _), ← length_listed,
    List.take_eq_take_iff]
  omega

theorem firstLine_of_not_mem (hline : newline ∉ listed line) : firstLine line = line := by
  rw [← listed_inj, listed_firstLine, takeWhile_of_not_mem hline,
    List.take_of_length_le (Nat.le_succ _)]

theorem size_firstLine_le (bytes : ByteArray) : (firstLine bytes).size ≤ bytes.size := by
  rw [← length_listed, ← length_listed, listed_firstLine, List.length_take]
  exact Nat.min_le_right _ _

/-- The line of a reader with a limit is the beginning of the first line. -/
theorem extract_lineLength (bytes : ByteArray) (limit : Nat) :
    bytes.extract 0 (lineLength bytes 0 (min bytes.size limit)) =
      (firstLine bytes).extract 0 limit := by
  rw [← listed_inj, listed_extract_zero, listed_extract_zero, listed_firstLine,
    lineLength_eq (Nat.min_le_left _ _), List.take_take, List.take_eq_take_iff, length_listed]
  omega

theorem firstLine_of_split (hline : newline ∉ listed line) :
    firstLine (line.push newline) = line.push newline := by
  rw [← listed_inj, listed_firstLine, listed_push, takeWhile_of_split hline]
  simp

/-- A reader reads what it sees of the first line. -/
theorem readFirst_eq (c : Codec α) (bytes : ByteArray) :
    readFirst c bytes = readLine c ((firstLine bytes).extract 0 (maxMessageSize + 1)) := by
  rw [← extract_lineLength]
  unfold readFirst readMessage
  simp only [Nat.zero_add, Nat.sub_zero]

/-- However much a reader takes from a stream at a time, it is not more than a line may have and one. -/
theorem readMessage_le (c : Codec α) (bytes : ByteArray) (start : Nat) :
    (readMessage c bytes start).2 ≤ start + (maxMessageSize + 1) := by
  refine Nat.add_le_add_left ?_ _
  exact Nat.le_trans (Nat.min_le_left _ _) (Nat.min_le_right _ _)

/-! ## Lines that are not too long -/

theorem extract_of_le {limit : Nat} (hsize : line.size ≤ limit) : line.extract 0 limit = line := by
  rw [← listed_inj, listed_extract_zero, List.take_of_length_le (length_listed line ▸ hsize)]

/-- A line that is not too long is refused for what it says, if at all. -/
theorem readLine_ne_tooLarge (hsize : line.size ≤ maxMessageSize) (n : Nat) :
    readLine c line ≠ .error (.protocol (.messageTooLarge n)) := by
  unfold readLine
  intro h
  split at h
  · cases h
  rw [if_neg (Nat.not_lt.2 hsize)] at h
  simp only at h
  split at h
  · cases h
  next text _ _ =>
  revert h
  cases c.ofChars (Text.trim text.toList) with
  | error e => exact fun h => by cases h
  | ok a => exact fun h => by cases h

/-! ## Lines that are too long -/

/-- Whether a character of a text begins where a reader stops, or the text just ends there. -/
def DividesAtLimit (text : String) : Prop :=
  ∃ front back : String, text = front ++ back ∧ front.utf8ByteSize = maxMessageSize + 1

/-- What a reader sees of a line that is too long is a text if the line divides there. -/
theorem dividesAtLimit_iff (hsize : maxMessageSize < text.utf8ByteSize) : DividesAtLimit text ↔
    ∃ seen, Text.decode (text.toUTF8.extract 0 (maxMessageSize + 1)) = .ok seen := by
  constructor
  · rintro ⟨front, back, rfl, hfront⟩
    refine ⟨front, decode_eq_ok_iff_toUTF8.2 ?_⟩
    rw [String.toUTF8_eq_toByteArray, String.toByteArray_append, ← hfront,
      ← String.size_toByteArray, ByteArray.extract_append_eq_left rfl]
    rfl
  · rintro ⟨seen, hseen⟩
    have hvalid : (⟨maxMessageSize + 1⟩ : String.Pos.Raw).IsValid text := by
      rw [String.Pos.Raw.isValid_iff_isValidUTF8_extract_zero]
      refine ⟨hsize, ?_⟩
      have hbytes := decode_eq_ok_iff_toUTF8.1 hseen
      rw [String.toUTF8_eq_toByteArray] at hbytes
      rw [hbytes]
      exact seen.isValidUTF8
    obtain ⟨front, back, htext, hplace⟩ := String.Pos.Raw.isValid_iff_exists_append.1 hvalid
    exact ⟨front, back, htext, congrArg String.Pos.Raw.byteIdx hplace.symm⟩

/-- No text divides within a character. -/
theorem not_divides_of_straddle {front back : String} {ch : Char}
    (hfront : front.utf8ByteSize ≤ maxMessageSize)
    (hover : maxMessageSize + 1 < front.utf8ByteSize + ch.utf8Size) :
    ¬ DividesAtLimit (front ++ String.singleton ch ++ back) := by
  rintro ⟨seen, rest, htext, hseen⟩
  have hchars := congrArg String.toList htext
  rw [String.append_assoc, String.toList_append, String.toList_append, String.toList_append,
    String.toList_singleton, List.singleton_append] at hchars
  obtain ⟨more, hmore, hrest⟩ | ⟨more, hmore, hrest⟩ := List.append_eq_append_iff.1 hchars
  · -- What is seen holds all that is before the character, and so all of the character or nothing.
    have hsize : seen = front ++ String.ofList more := by
      rw [← String.toList_inj, String.toList_append, String.toList_ofList, hmore]
    rw [hsize, String.utf8ByteSize_append] at hseen
    cases more with
    | nil =>
      have hnone : (String.ofList []).utf8ByteSize = 0 := by decide
      omega
    | cons d more =>
      obtain rfl : ch = d := (List.cons.inj hrest).1
      rw [String.ofList_cons, String.utf8ByteSize_append, String.utf8ByteSize_singleton] at hseen
      omega
  · have hsize : front = seen ++ String.ofList more := by
      rw [← String.toList_inj, String.toList_append, String.toList_ofList, hmore]
    rw [hsize, String.utf8ByteSize_append] at hfront
    omega

theorem size_seen (hsize : maxMessageSize < text.utf8ByteSize) :
    (text.toUTF8.extract 0 (maxMessageSize + 1)).size = maxMessageSize + 1 := by
  rw [ByteArray.size_extract, String.toUTF8_eq_toByteArray, String.size_toByteArray]
  omega

/-- A line that is too long is told to be so if it divides where the reader stops. -/
theorem readFirst_of_divides (hline : firstLine bytes = text.toUTF8)
    (hsize : maxMessageSize < text.utf8ByteSize) (hdivides : DividesAtLimit text) :
    readFirst c bytes = .error (.protocol (.messageTooLarge (maxMessageSize + 1))) := by
  obtain ⟨seen, hseen⟩ := (dividesAtLimit_iff hsize).1 hdivides
  rw [readFirst_eq, hline, readLine, hseen]
  simp only [size_seen hsize]
  rw [if_pos (Nat.lt_succ_self _)]

/-- A line that is too long and does not divide where the reader stops is told to be no text. -/
theorem readFirst_of_not_divides (hline : firstLine bytes = text.toUTF8)
    (hsize : maxMessageSize < text.utf8ByteSize) (hdivides : ¬ DividesAtLimit text) :
    ∃ fault, readFirst c bytes = .error (.io (.notText fault)) := by
  rw [readFirst_eq, hline, readLine]
  cases hseen : Text.decode (text.toUTF8.extract 0 (maxMessageSize + 1)) with
  | error fault => exact ⟨fault, rfl⟩
  | ok seen => exact absurd ((dividesAtLimit_iff hsize).2 ⟨seen, hseen⟩) hdivides

/-- What a reader makes of the length of the first line. It looks at `maxMessageSize + 1` bytes of
it. A line with no more than `maxMessageSize` of them is never refused for its size. A text with
more is told to be too long if a character begins where the reader stops, and to be no text
otherwise. -/
theorem oversize_told (c : Codec α) (bytes : ByteArray) :
    (readFirst c bytes = readLine c ((firstLine bytes).extract 0 (maxMessageSize + 1)) ∧
      (readMessage c bytes 0).2 ≤ maxMessageSize + 1) ∧
    ((firstLine bytes).size ≤ maxMessageSize →
      readFirst c bytes = readLine c (firstLine bytes) ∧
        ∀ n, readFirst c bytes ≠ .error (.protocol (.messageTooLarge n))) ∧
    ∀ text : String, firstLine bytes = text.toUTF8 → maxMessageSize < text.utf8ByteSize →
      (readFirst c bytes = .error (.protocol (.messageTooLarge (maxMessageSize + 1))) ↔
        DividesAtLimit text) ∧
      (¬ DividesAtLimit text → ∃ fault, readFirst c bytes = .error (.io (.notText fault))) := by
  refine ⟨⟨readFirst_eq c bytes, ?_⟩, fun hsize => ?_, fun text hline hsize => ?_⟩
  · have hle := readMessage_le c bytes 0
    rwa [Nat.zero_add] at hle
  · have hall : readFirst c bytes = readLine c (firstLine bytes) := by
      rw [readFirst_eq, extract_of_le (Nat.le_succ_of_le hsize)]
    exact ⟨hall, fun n => hall ▸ readLine_ne_tooLarge hsize n⟩
  · refine ⟨⟨fun htold => ?_, readFirst_of_divides hline hsize⟩,
      readFirst_of_not_divides hline hsize⟩
    by_cases hdivides : DividesAtLimit text
    · exact hdivides
    · obtain ⟨fault, hnot⟩ := readFirst_of_not_divides (c := c) hline hsize hdivides
      rw [hnot] at htold
      cases htold

/-! ## A line of one character over and over -/

theorem utf8ByteSize_replicate (n : Nat) : (String.ofList (List.replicate n 'x')).utf8ByteSize = n := by
  induction n with
  | zero => rfl
  | succ n ih =>
    rw [List.replicate_succ, String.ofList_cons, String.utf8ByteSize_append, ih,
      String.utf8ByteSize_singleton, Nat.add_comm]
    rfl

theorem newline_not_mem_replicate (n : Nat) :
    newline ∉ listed (String.ofList (List.replicate n 'x')).toUTF8 := by
  rw [newline_mem_listed_iff, String.toList_ofList, List.mem_replicate]
  simp

/-- A short line is not refused for its size, and one byte too many is told. -/
theorem oversize_told_at :
    (∀ n, readFirst LockAnswer.codec "{}\n".toUTF8 ≠ .error (.protocol (.messageTooLarge n))) ∧
    readFirst LockAnswer.codec (String.ofList (List.replicate (maxMessageSize + 1) 'x')).toUTF8 =
      .error (.protocol (.messageTooLarge 16777217)) := by
  have hx := utf8ByteSize_replicate (maxMessageSize + 1)
  have hline := firstLine_of_not_mem (newline_not_mem_replicate (maxMessageSize + 1))
  refine ⟨((oversize_told LockAnswer.codec "{}\n".toUTF8).2.1 ?_).2, ?_⟩
  · exact Nat.le_trans (size_firstLine_le _) (by decide)
  · have htold := (oversize_told LockAnswer.codec _).2.2 _ hline (by omega)
    exact htold.1.2 ⟨_, "", String.append_empty.symm, hx⟩

/-- A line whose last character is of two bytes, of which a reader sees the first. -/
def halved : String :=
  String.ofList (List.replicate maxMessageSize 'x') ++ String.singleton 'é' ++ "\n"

theorem firstLine_halved : firstLine halved.toUTF8 = halved.toUTF8 := by
  have hline : newline ∉
      listed (String.ofList (List.replicate maxMessageSize 'x') ++ String.singleton 'é').toUTF8 := by
    rw [newline_mem_listed_iff, String.toList_append, String.toList_ofList, List.mem_append,
      List.mem_replicate]
    simp
  have hpush : halved.toUTF8 = (String.ofList (List.replicate maxMessageSize 'x') ++
      String.singleton 'é').toUTF8.push newline := by
    rw [halved, String.toUTF8_eq_toByteArray, String.toByteArray_append,
      ← ByteArray.append_toByteArray_singleton]
    rfl
  rw [hpush, firstLine_of_split hline]

/-- A line that is a text and too long may be told to be no text: one of its characters is cut in
half. -/
theorem halved_not_told : firstLine halved.toUTF8 = halved.toUTF8 ∧
    maxMessageSize < halved.toUTF8.size ∧
    ∃ fault, readFirst LockAnswer.codec halved.toUTF8 = .error (.io (.notText fault)) := by
  have hx := utf8ByteSize_replicate maxMessageSize
  have hé : 'é'.utf8Size = 2 := by decide
  have hsize : maxMessageSize < halved.utf8ByteSize := by
    rw [halved, String.utf8ByteSize_append, String.utf8ByteSize_append, hx,
      String.utf8ByteSize_singleton, hé]
    omega
  refine ⟨firstLine_halved, hsize, readFirst_of_not_divides firstLine_halved hsize ?_⟩
  exact not_divides_of_straddle (Nat.le_of_eq hx) (by omega)

end TaskSwarm.Wire
