/-
A message is one line.

The text of a value holds no line break, so the line that is read from the bytes
of a message is all of them, unless they are too many, and then the line is too
long to be read (`lineLength_writeMessage`). What is left once blanks are trimmed
is the text of the value. `decode_of_readFirst` puts this together with the
scanner: who reads a message that was written reads the tree of its value.
-/
import TaskSwarm.Proofs.Json.Scanner
import TaskSwarm.Proofs.Wire.Bytes
import TaskSwarm.Wire.Line

set_option autoImplicit false

namespace TaskSwarm

/-! ## No line break within a value -/

namespace Json

theorem newline_not_mem_escapeChar (c : Char) : '\n' ∉ escapeChar c := by
  unfold escapeChar
  split
  case h_8 hn hr ht =>
    split
    · next hlow =>
      have hcases : ∀ i : Fin 0x20, '\n' ∉ ['\\', 'u'] ++ Text.hexDigits 4 i.val := by decide
      exact hcases ⟨c.toNat, hlow⟩
    · intro hmem
      exact hn (List.mem_singleton.1 hmem).symm
  all_goals decide

theorem newline_not_mem_stringChars (s : String) : '\n' ∉ stringChars s := by
  have hescaped : '\n' ∉ s.toList.flatMap escapeChar := by
    intro hmem
    obtain ⟨c, -, hc⟩ := List.mem_flatMap.1 hmem
    exact newline_not_mem_escapeChar c hc
  simp [stringChars, hescaped]

theorem newline_not_mem_numeral {body : List Char} (hbody : Decimal.IsNumeral body) :
    '\n' ∉ body := by
  obtain ⟨hw, hf, he⟩ := hbody
  have hdigits : ∀ ds, Decimal.IsDigits ds → '\n' ∉ ds := by
    intro ds hds hmem
    have hdigit := hds.isDigit _ hmem
    revert hdigit
    decide
  have hfraction : ∀ cs, Decimal.IsFraction cs → '\n' ∉ cs := by
    intro cs hcs
    cases hcs with
    | none => simp
    | digits hds => simp [hdigits _ hds]
  have hexponent : ∀ cs, Decimal.IsExponent cs → '\n' ∉ cs := by
    intro cs hcs
    cases hcs with
    | none => simp
    | digits hsign hds =>
      simp only [List.mem_cons, List.not_mem_nil, or_false] at hsign
      rcases hsign with rfl | rfl | rfl <;> simp [hdigits _ hds]
  simp [hdigits _ hw.toIsDigits, hfraction _ hf, hexponent _ he]

theorem newline_not_mem_numberChars (n : Number) : '\n' ∉ numberChars n := by
  rcases numberChars_eq n with hnull | ⟨body, hbody, hbare | hsigned⟩
  · rw [hnull]
    decide
  · rw [hbare]
    exact newline_not_mem_numeral hbody
  · rw [hsigned]
    simp [newline_not_mem_numeral hbody]

mutual

theorem newline_not_mem_chars : (j : Json) → '\n' ∉ j.chars
  | .null => by simp [chars]
  | .bool b => by cases b <;> simp [chars, boolChars]
  | .num n => newline_not_mem_numberChars n
  | .str s => newline_not_mem_stringChars s
  | .arr items => by simp [chars, newline_not_mem_itemsChars items]
  | .obj members => by simp [chars, newline_not_mem_membersChars members]

theorem newline_not_mem_itemsChars : (items : List Json) → '\n' ∉ itemsChars items
  | [] => by simp [itemsChars]
  | [x] => by simp [itemsChars, newline_not_mem_chars x]
  | x :: y :: ys => by
    simp [itemsChars, newline_not_mem_chars x, newline_not_mem_itemsChars (y :: ys)]

theorem newline_not_mem_membersChars : (members : List (String × Json)) →
    '\n' ∉ membersChars members
  | [] => by simp [membersChars]
  | [(k, v)] => by simp [membersChars, newline_not_mem_stringChars k, newline_not_mem_chars v]
  | (k, v) :: m :: ms => by
    simp [membersChars, newline_not_mem_stringChars k, newline_not_mem_chars v,
      newline_not_mem_membersChars (m :: ms)]

end

end Json

namespace Wire

/-! ## Bytes -/

/-- A byte of ASCII stands for its own character only. -/
theorem ascii_not_mem_utf8EncodeChar {c : Char} {n : Nat} (hn : n < 128) (hc : c.val.toNat ≠ n) :
    UInt8.ofNat n ∉ String.utf8EncodeChar c := by
  have hbyte : ∀ m, m ≠ n → m < 256 → UInt8.ofNat n ≠ UInt8.ofNat m := by
    intro m hne hlt heq
    have hnat := congrArg UInt8.toNat heq
    rw [UInt8.toNat_ofNat', UInt8.toNat_ofNat', Nat.mod_eq_of_lt hlt,
      Nat.mod_eq_of_lt (by omega)] at hnat
    exact hne hnat.symm
  -- One byte up to 0x7F; beyond that, every byte of a character is 0x80 or more.
  unfold String.utf8EncodeChar
  simp only
  split
  · simp only [List.mem_singleton]
    exact hbyte _ hc (by omega)
  · split
    · simp only [List.mem_cons, List.not_mem_nil, or_false, not_or]
      exact ⟨hbyte _ (by omega) (by omega), hbyte _ (by omega) (by omega)⟩
    · split
      · simp only [List.mem_cons, List.not_mem_nil, or_false, not_or]
        exact ⟨hbyte _ (by omega) (by omega), hbyte _ (by omega) (by omega),
          hbyte _ (by omega) (by omega)⟩
      · simp only [List.mem_cons, List.not_mem_nil, or_false, not_or]
        exact ⟨hbyte _ (by omega) (by omega), hbyte _ (by omega) (by omega),
          hbyte _ (by omega) (by omega), hbyte _ (by omega) (by omega)⟩

/-- Only a line break has the byte of one. -/
theorem newline_not_mem_utf8EncodeChar {c : Char} (hc : c ≠ '\n') :
    newline ∉ String.utf8EncodeChar c :=
  ascii_not_mem_utf8EncodeChar (n := 10) (by omega) fun h => hc (Char.toNat_inj.1 h)

/-- A text has the byte of a character of ASCII where it has that character, and nowhere else. -/
theorem ascii_mem_listed_iff {s : String} (ch : Char) (hch : ch.val.toNat < 128) :
    UInt8.ofNat ch.val.toNat ∈ listed s.toUTF8 ↔ ch ∈ s.toList := by
  rw [listed_toUTF8, List.mem_flatMap]
  constructor
  · rintro ⟨d, hd, hbyte⟩
    have hval : d.val.toNat = ch.val.toNat := by
      by_contra hne
      exact ascii_not_mem_utf8EncodeChar hch hne hbyte
    obtain rfl : d = ch := Char.toNat_inj.1 hval
    exact hd
  · refine fun hmem => ⟨ch, hmem, ?_⟩
    have hle : ch.toNat ≤ 0x7f := Nat.le_of_lt_succ hch
    simp [String.utf8EncodeChar, hle]

theorem newline_mem_listed_iff {s : String} : newline ∈ listed s.toUTF8 ↔ '\n' ∈ s.toList :=
  ascii_mem_listed_iff '\n' (by decide)

/-! ## The first line -/

theorem ne_newline_of_not_mem {l : List UInt8} (h : newline ∉ l) :
    ∀ b ∈ l, decide (b ≠ newline) = true := by
  intro b hb
  have hne : b ≠ newline := by
    rintro rfl
    exact h hb
  simpa using hne

theorem takeWhile_of_not_mem {l : List UInt8} (h : newline ∉ l) :
    l.takeWhile (· ≠ newline) = l := by
  rw [← List.append_nil l, List.takeWhile_append_of_pos (ne_newline_of_not_mem h)]
  rfl

theorem takeWhile_of_split {before : List UInt8} (h : newline ∉ before) (after : List UInt8) :
    (before ++ newline :: after).takeWhile (· ≠ newline) = before := by
  rw [List.takeWhile_append_of_pos (ne_newline_of_not_mem h)]
  simp

/-- A line ends at the first line break, or where the reader stops. -/
theorem lineLength_eq {bytes : ByteArray} {stop : Nat} (hstop : stop ≤ bytes.size) :
    lineLength bytes 0 stop = min (((listed bytes).takeWhile (· ≠ newline)).length + 1) stop := by
  unfold lineLength
  by_cases hmem : newline ∈ listed bytes
  · obtain ⟨before, after, hlist, hbefore⟩ := List.eq_append_cons_of_mem hmem
    rw [findIdx?_eq_some_iff.2 ⟨before, after, hlist, hbefore, rfl⟩, hlist,
      takeWhile_of_split hbefore]
    simp only
    split <;> omega
  · rw [findIdx?_eq_none_iff.2 hmem, takeWhile_of_not_mem hmem, length_listed]
    simp only
    omega

/-! ## The line of a message -/

/-- The bytes of the text of a value, its line break left out. -/
def textBytes (j : Json) : List UInt8 := j.chars.flatMap String.utf8EncodeChar

theorem newline_not_mem_textBytes (j : Json) : newline ∉ textBytes j := by
  intro hmem
  obtain ⟨c, hc, hmem⟩ := List.mem_flatMap.1 hmem
  refine newline_not_mem_utf8EncodeChar ?_ hmem
  rintro rfl
  exact Json.newline_not_mem_chars j hc

variable {α : Type} {c : Codec α} {a b : α}

theorem writeMessage_eq (c : Codec α) (a : α) :
    writeMessage c a = (textBytes (c.encode a) ++ [newline]).toByteArray := by
  have hbreak : "\n".toByteArray = [newline].toByteArray := by
    have hlist : "\n" = String.ofList ['\n'] := rfl
    rw [hlist, String.toByteArray_ofList, List.utf8Encode_singleton]
    rfl
  unfold writeMessage Json.render textBytes
  rw [String.toUTF8_eq_toByteArray, String.toByteArray_append, String.toByteArray_ofList, hbreak,
    List.utf8Encode, List.toByteArray_append]

theorem size_writeMessage (c : Codec α) (a : α) :
    (writeMessage c a).size = (textBytes (c.encode a)).length + 1 := by
  rw [writeMessage_eq, List.size_toByteArray, List.length_append, List.length_singleton]

theorem listed_writeMessage (c : Codec α) (a : α) :
    listed (writeMessage c a) = textBytes (c.encode a) ++ [newline] := by
  rw [writeMessage_eq, listed_toByteArray]

/-- The line that is found in a message is all of it, as far as the reader looks. -/
theorem lineLength_writeMessage (c : Codec α) (a : α) {stop : Nat}
    (hstop : stop ≤ (writeMessage c a).size) : lineLength (writeMessage c a) 0 stop = stop := by
  rw [lineLength_eq hstop, listed_writeMessage, takeWhile_of_split (newline_not_mem_textBytes _),
    ← size_writeMessage]
  exact Nat.min_eq_right hstop

/-! ## Text -/

theorem trim_newline (cs : List Char) : Text.trim (cs ++ ['\n']) = Text.trim cs := by
  have hblank : Text.isBlank '\n' = true := by decide
  simp [Text.trim, Text.dropBlanksRight, hblank]

/-- Nothing is trimmed from the text of a record. -/
theorem trim_chars_obj (members : List (String × Json)) :
    Text.trim (Json.obj members).chars = (Json.obj members).chars := by
  apply Text.trim_eq_self
  · intro c hc
    simp only [Json.chars, List.cons_append, List.head?_cons, Option.some.injEq] at hc
    subst hc
    decide
  · intro c hc
    simp only [Json.chars, List.getLast?_append, List.getLast?_singleton] at hc
    cases hc
    decide

/-- Nothing is left of the text of a value once its tree is taken in. -/
theorem ofChars_chars (c : Codec α) (j : Json) :
    c.ofChars j.chars = c.decode (.text Source.maxLevels) j.tree := by
  unfold Codec.ofChars
  rw [Json.scan_chars]
  cases hdecode : c.decode (.text Source.maxLevels) j.tree <;>
    simp [hdecode, bind, Except.bind, Json.skipSpace, pure, Except.pure]

/-- Who reads a message that was written reads the tree of its value. -/
theorem readFirst_writeMessage {members : List (String × Json)} (hobj : c.encode a = .obj members)
    (hsize : (writeMessage c a).size ≤ maxMessageSize) :
    readFirst c (writeMessage c a) =
      (c.decode (.text Source.maxLevels) (c.encode a).tree).mapError .ofDecode := by
  have hlength : min ((writeMessage c a).size - 0) (maxMessageSize + 1) = (writeMessage c a).size := by
    omega
  -- The line is the whole message, its text decodes, and only the line break is trimmed from it.
  have htext : Text.decode (writeMessage c a) = .ok ((c.encode a).render ++ "\n") :=
    decode_toUTF8 _
  have htrim : Text.trim ((c.encode a).render ++ "\n").toList = (c.encode a).chars := by
    rw [hobj, String.toList_append, Json.render, String.toList_ofList]
    exact (trim_newline _).trans (trim_chars_obj members)
  have hne : (c.encode a).chars.isEmpty = false := by rw [hobj]; rfl
  unfold readFirst readMessage
  simp only [Nat.zero_add, hlength, lineLength_writeMessage c a (Nat.le_refl _),
    ByteArray.extract_zero_size]
  unfold readLine
  simp only [htext, if_neg (Nat.not_lt.2 hsize), htrim, hne, Bool.false_eq_true, if_false,
    ofChars_chars]

/-- A message that is too long is not read: the reader sees one byte too many, and refuses. -/
theorem size_of_readFirst (h : readFirst c (writeMessage c a) = .ok b) :
    (writeMessage c a).size ≤ maxMessageSize := by
  by_cases hlong : maxMessageSize < (writeMessage c a).size
  · exfalso
    have hlength : min ((writeMessage c a).size - 0) (maxMessageSize + 1) ≤
        (writeMessage c a).size := by
      omega
    have hsize : ((writeMessage c a).extract 0
        (min ((writeMessage c a).size - 0) (maxMessageSize + 1))).size = maxMessageSize + 1 := by
      rw [ByteArray.size_extract]
      omega
    unfold readFirst readMessage at h
    simp only [Nat.zero_add, lineLength_writeMessage c a hlength] at h
    unfold readLine at h
    split at h
    · cases h
    · rw [if_pos (by rw [hsize]; exact Nat.lt_succ_self _)] at h
      cases h
  · exact Nat.not_lt.1 hlong

/-- What is read from a message is what its tree decodes to. -/
theorem decode_of_readFirst {members : List (String × Json)} (hobj : c.encode a = .obj members)
    (h : readFirst c (writeMessage c a) = .ok b) :
    c.decode (.text Source.maxLevels) (c.encode a).tree = .ok b := by
  rw [readFirst_writeMessage hobj (size_of_readFirst h)] at h
  cases hdecode : c.decode (.text Source.maxLevels) (c.encode a).tree with
  | error e =>
    rw [hdecode] at h
    cases h
  | ok b' =>
    rw [hdecode] at h
    cases h
    rfl

end Wire

end TaskSwarm
