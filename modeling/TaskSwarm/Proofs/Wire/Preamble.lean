/-
What a node makes of the first line of a connection.

A caller writes a line that says who it is and what for, and then what the
protocol wants. The node takes in no more than `Hello.maxSize` bytes for that
line, so all hangs on how long the text of the line is. A shorter text is read
with its line break, and the handler is handed every byte that follows, however
the connection was cut into pieces. A longer one is cut before its last brace and
refused. A text of just that length is read without its line break, which then
comes first of what the handler is handed (`line_break_reaches_handler`), so that
what follows is handed on as it was written exactly after the other lengths
(`left_to_handler_iff`).
-/
import TaskSwarm.Proofs.Json.Cut
import TaskSwarm.Proofs.Wire.Framing
import TaskSwarm.Proofs.Wire.Intake
import TaskSwarm.Wire.Hello

set_option autoImplicit false

namespace TaskSwarm

/-! ## A text that is cut -/

/-- Trimming takes nothing from the front of a text that does not start with a blank. -/
theorem trim_prefix {c : Char} {cs : List Char} (hc : Text.isBlank c = false) :
    Text.trim (c :: cs) <+: c :: cs := by
  have hright : Text.dropBlanksRight (c :: cs) <+: c :: cs := by
    rw [← List.reverse_suffix, Text.dropBlanksRight, List.reverse_reverse]
    exact List.dropWhile_suffix _
  rw [Text.trim]
  rcases List.prefix_cons_iff.1 hright with hnil | ⟨kept, hkept, -⟩
  · rw [hnil]
    exact List.nil_prefix
  · rw [hkept, List.dropWhile_cons_of_neg (by simp [hc]), ← hkept]
    exact hright

/-- A reader of a message finds none in an empty line. -/
theorem Wire.readFirst_newline {α : Type} (c : Codec α) (rest : ByteArray) :
    Wire.readFirst c ([Wire.newline].toByteArray ++ rest) = .error (.protocol .noData) := by
  have hlisted : Wire.listed ([Wire.newline].toByteArray ++ rest) =
      [] ++ Wire.newline :: Wire.listed rest := by
    rw [Wire.listed_append, Wire.listed_toByteArray]
    rfl
  have hlength : Wire.lineLength ([Wire.newline].toByteArray ++ rest) 0
      (0 + min (([Wire.newline].toByteArray ++ rest).size - 0) (Wire.maxMessageSize + 1)) = 1 := by
    rw [Wire.lineLength_eq (by omega), hlisted, Wire.takeWhile_of_split List.not_mem_nil,
      ByteArray.size_append, List.size_toByteArray, List.length_singleton, List.length_nil]
    omega
  have hline : Wire.readLine c [Wire.newline].toByteArray = .error (.protocol .noData) := rfl
  have hfirst : ([Wire.newline].toByteArray ++ rest).extract 0 1 = [Wire.newline].toByteArray :=
    ByteArray.extract_append_eq_left (by rw [List.size_toByteArray, List.length_singleton])
  unfold Wire.readFirst Wire.readMessage
  simp only [hlength]
  rw [Nat.zero_add, hfirst, hline]

namespace Hello

variable {h : Hello}

/-! ## What a hello is written as -/

/-- The text of a hello. -/
def text (h : Hello) : String := (codec.encode h).render

theorem encode_eq (h : Hello) :
    codec.encode h = .obj (Json.texts [("peer", h.peer), ("protocol", h.protocol)]) := rfl

theorem toUTF8_text (h : Hello) : h.text.toUTF8 = (Wire.textBytes (codec.encode h)).toByteArray := by
  rw [text, Json.render, String.toUTF8_eq_toByteArray, String.toByteArray_ofList]
  rfl

theorem size_text (h : Hello) : (Wire.textBytes (codec.encode h)).length = h.text.utf8ByteSize :=
  Wire.length_textBytes _

/-- A hello is its text and a line break. -/
theorem write_eq (h : Hello) : h.write = h.text.toUTF8 ++ [Wire.newline].toByteArray := by
  rw [write, Wire.writeMessage_eq, toUTF8_text, List.toByteArray_append]

theorem size_write (h : Hello) : h.write.size = h.text.utf8ByteSize + 1 := by
  rw [write, Wire.size_writeMessage, size_text]

theorem keeps_codec (h : Hello) : codec.Keeps h := by
  have hfields : (Fields.cons (.required "peer" .string) <|
      .cons (.required "protocol" .string) .nil).Faithful :=
    ⟨RecordField.faithful_required _ (Codec.faithful_textAs _),
      RecordField.faithful_required _ (Codec.faithful_textAs _), trivial⟩
  exact Codec.keeps_record hfields (by decide) (fun _ => rfl)
    ⟨Codec.keeps_textAs _ _, Codec.keeps_textAs _ _, trivial⟩

/-- A hello is read from its text. -/
theorem ofChars_encode (h : Hello) : codec.ofChars (codec.encode h).chars = .ok h := by
  have hdepth : (codec.encode h).depth < Source.maxLevels := by
    simp [encode_eq, Json.texts, Json.depth, Json.membersDepth, Source.maxLevels]
  have hconveys : Conveys (.text Source.maxLevels) (codec.encode h) (codec.encode h).tree :=
    Json.conveys_tree _ ⟨trivial, trivial, trivial⟩ hdepth
  rw [Wire.ofChars_chars]
  exact (keeps_codec h).reads _ _ hconveys

/-! ## What is read of its line -/

/-- What a line that was found is read as. -/
theorem read_of_line {line rest : ByteArray} (hne : line.size ≠ 0)
    (hlength : Wire.lineLength (line ++ rest) 0 (min (line ++ rest).size maxSize) = line.size) :
    read (line ++ rest) =
      match Text.decode line with
      | .error fault => .error (.io (.notText fault))
      | .ok s => ((codec.ofChars (Text.trim s.toList)).mapError .ofDecode).map (.call · rest) := by
  unfold read
  simp only [hlength, hne, if_false, ByteArray.extract_append_eq_left]
  rw [ByteArray.extract_append_eq_right rfl ByteArray.size_append]
  cases Text.decode line with
  | error fault => rfl
  | ok s => cases codec.ofChars (Text.trim s.toList) <;> rfl

/-- The line that is found is the text of the hello and its line break, as far as there is room. -/
theorem lineLength_write (h : Hello) (payload : ByteArray) :
    Wire.lineLength (h.write ++ payload) 0 (min (h.write ++ payload).size maxSize) =
      min (h.text.utf8ByteSize + 1) maxSize := by
  have hlisted : Wire.listed (h.write ++ payload) =
      Wire.textBytes (codec.encode h) ++ Wire.newline :: Wire.listed payload := by
    rw [Wire.listed_append, write, Wire.writeMessage_eq, Wire.listed_toByteArray,
      List.append_assoc, List.singleton_append]
  rw [Wire.lineLength_eq (Nat.min_le_left _ _), hlisted,
    Wire.takeWhile_of_split (Wire.newline_not_mem_textBytes _), size_text, ByteArray.size_append,
    size_write]
  omega

/-- With room for its line break, a hello is read from its line, and what follows is left. -/
theorem read_write_of_lt (hlt : h.text.utf8ByteSize < maxSize) (payload : ByteArray) :
    read (h.write ++ payload) = .ok (.call h payload) := by
  have hlength : Wire.lineLength (h.write ++ payload) 0 (min (h.write ++ payload).size maxSize) =
      h.write.size := by
    rw [lineLength_write, size_write]
    exact Nat.min_eq_left hlt
  have hdecode : Text.decode h.write = .ok (h.text ++ "\n") := Wire.decode_toUTF8 _
  have htrim : Text.trim (h.text ++ "\n").toList = (codec.encode h).chars := by
    rw [String.toList_append, text, Json.render, String.toList_ofList, encode_eq]
    exact (Wire.trim_newline _).trans (Wire.trim_chars_obj _)
  rw [read_of_line (by rw [size_write]; omega) hlength, hdecode]
  simp only [htrim, ofChars_encode]
  rfl

/-- With room for the text alone, a hello is read without its line break, which is left. -/
theorem read_write_of_eq (heq : h.text.utf8ByteSize = maxSize) (payload : ByteArray) :
    read (h.write ++ payload) = .ok (.call h ([Wire.newline].toByteArray ++ payload)) := by
  have hsize : h.text.toUTF8.size = maxSize := heq
  have hlength := lineLength_write h payload
  rw [heq, Nat.min_eq_right (Nat.le_succ _), write_eq, ByteArray.append_assoc] at hlength
  have htrim : Text.trim h.text.toList = (codec.encode h).chars := by
    rw [text, Json.render, String.toList_ofList, encode_eq]
    exact Wire.trim_chars_obj _
  rw [write_eq, ByteArray.append_assoc, read_of_line (by rw [hsize]; decide)
    (hlength.trans hsize.symm), Wire.decode_toUTF8]
  simp only [htrim, ofChars_encode]
  rfl

/-- The text of a hello that is cut is not read as a hello. -/
theorem exists_error_of_cut {p : List Char} (hp : p <+: (codec.encode h).chars)
    (hlt : p.length < (codec.encode h).chars.length) : ∃ e, codec.ofChars p = .error e := by
  rw [encode_eq] at hp hlt
  obtain ⟨e, he⟩ := Fields.exists_error_of_unfinished (.cons (.required "peer" .string) <|
    .cons (.required "protocol" .string) .nil) "Hello" (.text Source.maxLevels)
    (Json.unfinished_scan (List.cons_ne_nil _ _) hp hlt)
  have hdecode : codec.decode (.text Source.maxLevels) (Json.scan p).1 = .error e :=
    congrArg (Except.map _) he
  exact ⟨e, by simp [Codec.ofChars, hdecode, bind, Except.bind]⟩

theorem trim_prefix_of_prefix {p : List Char} (hp : p <+: (codec.encode h).chars) :
    Text.trim p <+: p := by
  cases p with
  | nil => exact List.prefix_refl _
  | cons c cs =>
    rw [encode_eq, Json.chars, List.cons_append, List.cons_prefix_cons] at hp
    refine trim_prefix ?_
    rw [hp.1]
    decide

/-- A text whose bytes are not all of the bytes of a hello is not read as a hello. -/
theorem exists_error_of_take {s : String} {n : Nat}
    (hbytes : s.toByteArray = ((Wire.textBytes (codec.encode h)).take n).toByteArray)
    (hn : n < h.text.utf8ByteSize) : ∃ e, codec.ofChars (Text.trim s.toList) = .error e := by
  have hencoded : s.toList.flatMap String.utf8EncodeChar =
      (Wire.textBytes (codec.encode h)).take n := by
    rw [← String.ofList_toList (s := s), String.toByteArray_ofList, List.utf8Encode] at hbytes
    have hlists := congrArg Wire.listed hbytes
    rwa [Wire.listed_toByteArray, Wire.listed_toByteArray] at hlists
  have hp : s.toList <+: (codec.encode h).chars :=
    Wire.prefix_of_encoded (hencoded ▸ List.take_prefix _ _)
  have hlt : s.toList.length < (codec.encode h).chars.length := by
    refine Nat.lt_of_le_of_ne hp.length_le fun hlength => ?_
    have hall := hp.eq_of_length hlength
    rw [hall] at hencoded
    have hsizes := congrArg List.length hencoded
    rw [List.length_take] at hsizes
    have hsize := size_text h
    rw [Wire.textBytes] at hsizes hsize
    omega
  have htrim := trim_prefix_of_prefix hp
  exact exists_error_of_cut (htrim.trans hp) (Nat.lt_of_le_of_lt htrim.length_le hlt)

/-- Without room for its text, a hello is not read. -/
theorem exists_error_of_gt (hgt : maxSize < h.text.utf8ByteSize) (payload : ByteArray) :
    ∃ e, read (h.write ++ payload) = .error e := by
  let bytes := Wire.textBytes (codec.encode h)
  let line := (bytes.take maxSize).toByteArray
  let rest := (bytes.drop maxSize ++ [Wire.newline]).toByteArray ++ payload
  have hwrite : h.write ++ payload = line ++ rest := by
    rw [write, Wire.writeMessage_eq, ← ByteArray.append_assoc, ← List.toByteArray_append,
      ← List.append_assoc, List.take_append_drop]
  have hsize : line.size = maxSize := by
    rw [List.size_toByteArray, List.length_take]
    exact Nat.min_eq_left (Nat.le_of_lt (size_text h ▸ hgt))
  have hlength := lineLength_write h payload
  rw [Nat.min_eq_right (Nat.le_succ_of_le (Nat.le_of_lt hgt)), hwrite] at hlength
  rw [hwrite, read_of_line (by rw [hsize]; decide) (hlength.trans hsize.symm)]
  cases hdecode : Text.decode line with
  | error fault => exact ⟨_, rfl⟩
  | ok s =>
    obtain ⟨e, he⟩ := exists_error_of_take (Wire.decode_eq_ok_iff_toUTF8.1 hdecode).symm hgt
    exact ⟨.ofDecode e, by simp only [he]; rfl⟩

/-! ## However the bytes were cut -/

/-- The same beginning of a connection that has brought more. -/
def Opening.followedBy (more : ByteArray) : Opening → Opening
  | .probe => .probe
  | .call hello rest => .call hello (rest ++ more)

/-- What is read of enough of a connection is what is read of all of it. -/
theorem read_append {start more : ByteArray} (henough : Wire.Enough maxSize start more) :
    read (start ++ more) = (read start).map (·.followedBy more) := by
  have hline := Wire.lineLength_append henough
  have hle : Wire.lineLength start 0 (min start.size maxSize) ≤ start.size := by
    rw [Wire.lineLength_eq (Nat.min_le_left _ _)]
    omega
  generalize hlength : Wire.lineLength start 0 (min start.size maxSize) = length at hline hle
  have hfirst : (start ++ more).extract 0 length = start.extract 0 length := by
    rw [ByteArray.extract_append, Nat.sub_eq_zero_of_le hle]
    simp
  have hrest : (start ++ more).extract length (start ++ more).size =
      start.extract length start.size ++ more := by
    have hinner : (start ++ more).extract length start.size = start.extract length start.size := by
      have hnone : more.extract (length - start.size) 0 = .empty :=
        ByteArray.extract_eq_empty_iff.2 (by omega)
      rw [ByteArray.extract_append, Nat.sub_self, hnone, ByteArray.append_empty]
    rw [ByteArray.extract_eq_extract_append_extract start.size hle (by simp), hinner,
      ByteArray.extract_append_eq_right rfl ByteArray.size_append]
  unfold read
  simp only [hline, hlength, hfirst, hrest]
  split
  · rfl
  · cases Text.decode (start.extract 0 length) with
    | error fault => rfl
    | ok s =>
      simp only
      cases codec.ofChars (Text.trim s.toList) <;> rfl

theorem greet_append {start more : ByteArray} (henough : Wire.Enough maxSize start more)
    (protocols : List String) :
    greet protocols (start ++ more) = (greet protocols start).map (·.followedBy more) := by
  unfold greet
  rw [read_append henough]
  cases read start with
  | error e => rfl
  | ok opening =>
    cases opening with
    | probe => rfl
    | call hello rest =>
      change (if protocols.contains hello.protocol then _ else _) =
        Except.map _ (if protocols.contains hello.protocol then _ else _)
      split <;> rfl

/-- What a node makes of pieces in a row is what it makes of their bytes, and it leaves the rest. -/
theorem listen_popPiece {pieces : List ByteArray} (hpieces : ∀ p ∈ pieces, p.size ≠ 0)
    (protocols : List String) : ∃ opening left,
      listen Wire.popPiece protocols pieces = (opening, left) ∧
      greet protocols (Wire.joined pieces) = opening.map (·.followedBy (Wire.joined left)) := by
  obtain ⟨start, left, htake, hbytes, henough⟩ :=
    @Wire.takeIn_popPiece maxSize true pieces hpieces
  refine ⟨greet protocols start, left, ?_, ?_⟩
  · unfold listen
    change (greet protocols (Wire.takeIn Wire.popPiece maxSize true .empty pieces).1,
      (Wire.takeIn Wire.popPiece maxSize true .empty pieces).2) = _
    rw [htake]
  · rw [← hbytes]
    exact greet_append henough protocols

/-! ## What reaches the handler -/

variable {payload : ByteArray} {protocols : List String} {pieces : List ByteArray}

theorem greet_write_of_lt (hlt : h.text.utf8ByteSize < maxSize) (payload : ByteArray)
    (protocols : List String) : greet protocols (h.write ++ payload) =
      if protocols.contains h.protocol then .ok (.call h payload)
      else .error (.protocol (.notSupported h.protocol)) := by
  unfold greet
  rw [read_write_of_lt hlt]
  rfl

/-- The longest hello is accepted, but its line break counts as following it. -/
theorem greet_write_of_eq (heq : h.text.utf8ByteSize = maxSize) (payload : ByteArray)
    (protocols : List String) : greet protocols (h.write ++ payload) =
      if protocols.contains h.protocol then .ok (.call h ([Wire.newline].toByteArray ++ payload))
      else .error (.protocol (.notSupported h.protocol)) := by
  unfold greet
  rw [read_write_of_eq heq]
  rfl

theorem exists_error_of_greet (hgt : maxSize < h.text.utf8ByteSize) (payload : ByteArray)
    (protocols : List String) : ∃ e, greet protocols (h.write ++ payload) = .error e := by
  obtain ⟨e, he⟩ := exists_error_of_gt hgt payload
  exact ⟨e, by unfold greet; rw [he]; rfl⟩

/-- What is left to the handler of a call: what was read beyond the line, then what was not. -/
theorem greet_of_listen (hpieces : ∀ p ∈ pieces, p.size ≠ 0) {hello : Hello} {rest : ByteArray}
    {left : List ByteArray}
    (hlisten : listen Wire.popPiece protocols pieces = (.ok (.call hello rest), left)) :
    greet protocols (Wire.joined pieces) = .ok (.call hello (rest ++ Wire.joined left)) := by
  obtain ⟨opening, left', hlisten', hgreet⟩ := listen_popPiece hpieces protocols
  rw [hlisten] at hlisten'
  cases hlisten'
  exact hgreet

theorem exists_listen_of_greet (hpieces : ∀ p ∈ pieces, p.size ≠ 0) {hello : Hello}
    {bytes : ByteArray} (hgreet : greet protocols (Wire.joined pieces) = .ok (.call hello bytes)) :
    ∃ rest left, listen Wire.popPiece protocols pieces = (.ok (.call hello rest), left) := by
  obtain ⟨opening, left, hlisten, hsame⟩ := listen_popPiece hpieces protocols
  rw [hgreet] at hsame
  cases opening with
  | error e => cases hsame
  | ok opening =>
    cases opening with
    | probe => cases hsame
    | call hello' rest =>
      cases hsame
      exact ⟨rest, left, hlisten⟩

/-- After the longest hello, the line break is what the handler reads first, so there is no message for
it. -/
theorem line_break_reaches_handler (hpieces : ∀ p ∈ pieces, p.size ≠ 0)
    (hjoined : Wire.joined pieces = h.write ++ payload) (heq : h.text.utf8ByteSize = maxSize)
    {caller : Hello} {rest : ByteArray} {left : List ByteArray}
    (hlisten : listen Wire.popPiece protocols pieces = (.ok (.call caller rest), left)) :
    caller = h ∧ rest ++ Wire.joined left = [Wire.newline].toByteArray ++ payload ∧
      ∀ {α : Type} (c : Codec α),
        Wire.readFirst c (rest ++ Wire.joined left) = .error (.protocol .noData) := by
  have hgreet := greet_write_of_eq heq payload protocols
  rw [← hjoined, greet_of_listen hpieces hlisten] at hgreet
  split at hgreet
  · injection hgreet with hcall
    injection hcall with hcaller hbytes
    exact ⟨hcaller, hbytes, fun c => hbytes ▸ Wire.readFirst_newline c payload⟩
  · cases hgreet

/-- The handler of a protocol is called for the one who dialed, however the connection was cut, and is
left the bytes that follow the hello exactly if the text of the hello is not of the largest size. -/
theorem left_to_handler_iff (hpieces : ∀ p ∈ pieces, p.size ≠ 0)
    (hjoined : Wire.joined pieces = h.write ++ payload) :
    (protocols.contains h.protocol = true → h.text.utf8ByteSize ≤ maxSize →
      ∃ rest left, listen Wire.popPiece protocols pieces = (.ok (.call h rest), left)) ∧
    ∀ caller rest left, listen Wire.popPiece protocols pieces = (.ok (.call caller rest), left) →
      caller = h ∧
      (rest ++ Wire.joined left = payload ↔ h.text.utf8ByteSize ≠ maxSize) := by
  rcases Nat.lt_trichotomy h.text.utf8ByteSize maxSize with hlt | heq | hgt
  · have hgreet := greet_write_of_lt hlt payload protocols
    rw [← hjoined] at hgreet
    refine ⟨fun hserved _ => exists_listen_of_greet hpieces (hgreet.trans (if_pos hserved)), ?_⟩
    intro caller rest left hlisten
    rw [greet_of_listen hpieces hlisten] at hgreet
    split at hgreet
    · cases hgreet
      exact ⟨rfl, iff_of_true rfl (Nat.ne_of_lt hlt)⟩
    · cases hgreet
  · have hgreet := greet_write_of_eq heq payload protocols
    rw [← hjoined] at hgreet
    refine ⟨fun hserved _ => exists_listen_of_greet hpieces (hgreet.trans (if_pos hserved)), ?_⟩
    intro caller rest left hlisten
    obtain ⟨hcaller, hbytes, -⟩ := line_break_reaches_handler hpieces hjoined heq hlisten
    refine ⟨hcaller, iff_of_false ?_ (fun hne => hne heq)⟩
    intro hsame
    -- One byte more than the payload.
    have hsize := congrArg ByteArray.size hbytes
    rw [hsame, ByteArray.size_append, List.size_toByteArray, List.length_singleton] at hsize
    omega
  · obtain ⟨e, he⟩ := exists_error_of_greet hgt payload protocols
    refine ⟨fun _ hle => absurd hgt (Nat.not_lt.2 hle), ?_⟩
    intro caller rest left hlisten
    rw [← hjoined, greet_of_listen hpieces hlisten] at he
    cases he

/-- A hello that comes in three pieces, the last with bytes that are no text. -/
theorem left_in_pieces :
    let h : Hello := ⟨"é\n", "/echo"⟩
    let payload : ByteArray := [0xff, 10].toByteArray
    let pieces := [h.write.extract 0 11, h.write.extract 11 20,
      h.write.extract 20 h.write.size ++ payload]
    ∃ rest left, listen Wire.popPiece ["/echo"] pieces = (.ok (.call h rest), left) ∧
      rest ++ Wire.joined left = payload := by
  intro h payload pieces
  have hpieces : ∀ p ∈ pieces, p.size ≠ 0 := by decide
  have hjoined : Wire.joined pieces = h.write ++ payload := by decide
  have hsize : h.text.utf8ByteSize < maxSize := by decide
  obtain ⟨hcalled, hleft⟩ := @left_to_handler_iff h payload ["/echo"] pieces hpieces hjoined
  obtain ⟨rest, left, hlisten⟩ := hcalled (by decide) (Nat.le_of_lt hsize)
  exact ⟨rest, left, hlisten, (hleft _ _ _ hlisten).2.2 (Nat.ne_of_lt hsize)⟩

/-- How many bytes a text takes between quotation marks. -/
def quotedSize (s : String) : Nat := ((Json.stringChars s).flatMap String.utf8EncodeChar).length

theorem utf8ByteSize_text (h : Hello) :
    h.text.utf8ByteSize = quotedSize h.peer + quotedSize h.protocol + 21 := by
  have hpeer : ((Json.stringChars "peer").flatMap String.utf8EncodeChar).length = 6 := by decide
  have hprotocol : ((Json.stringChars "protocol").flatMap String.utf8EncodeChar).length = 10 := by
    decide
  have hopen : (String.utf8EncodeChar '\x7b').length = 1 := by decide
  have hcolon : (String.utf8EncodeChar ':').length = 1 := by decide
  have hcomma : (String.utf8EncodeChar ',').length = 1 := by decide
  have hclose : (String.utf8EncodeChar '\x7d').length = 1 := by decide
  rw [← size_text, encode_eq, Wire.textBytes]
  simp only [Json.texts, List.map_cons, List.map_nil, Json.chars, Json.membersChars,
    List.flatMap_append, List.flatMap_cons, List.flatMap_nil, List.length_append,
    List.append_nil, hpeer, hprotocol, hopen, hcolon, hcomma, hclose, quotedSize]
  omega

theorem quotedSize_replicate (n : Nat) :
    quotedSize (String.ofList (List.replicate n 'a')) = n + 2 := by
  have hescape : Json.escapeChar 'a' = ['a'] := by decide
  have hletter : (String.utf8EncodeChar 'a').length = 1 := by decide
  have hquote : (String.utf8EncodeChar '"').length = 1 := by decide
  have hletters : (((List.replicate n 'a').flatMap Json.escapeChar).flatMap
      String.utf8EncodeChar).length = n := by
    induction n with
    | zero => rfl
    | succ n ih =>
      simp only [List.replicate_succ, List.flatMap_cons, List.flatMap_append, List.length_append,
        List.flatMap_nil, List.append_nil, hescape, hletter, ih]
      omega
  simp only [quotedSize, Json.stringChars, String.toList_ofList, List.flatMap_append,
    List.flatMap_cons, List.flatMap_nil, List.length_append, List.append_nil, hletters, hquote,
    List.cons_append]
  omega

/-- The name that makes the text of a hello for `/echo` the longest one. -/
def longestName : PeerId := String.ofList (List.replicate 4066 'a')

theorem size_longest : (Hello.mk longestName "/echo").text.utf8ByteSize = maxSize := by
  have hpeer : quotedSize longestName = 4068 := quotedSize_replicate 4066
  have hprotocol : quotedSize "/echo" = 7 := by decide
  have hsize := utf8ByteSize_text ⟨longestName, "/echo"⟩
  simp only [hpeer, hprotocol] at hsize
  exact hsize

/-- The longest hello that is accepted: the handler of the message after it finds none, since the line
break of the hello comes first. -/
theorem longest_hello :
    let h : Hello := ⟨longestName, "/echo"⟩
    let payload := Wire.writeMessage UnlockRequest.codec ⟨"t", "L"⟩
    ∃ rest left, listen Wire.popPiece ["/echo"] [h.write, payload] = (.ok (.call h rest), left) ∧
      rest ++ Wire.joined left ≠ payload ∧
      Wire.readFirst UnlockRequest.codec payload = .ok ⟨"t", "L"⟩ ∧
      Wire.readFirst UnlockRequest.codec (rest ++ Wire.joined left) =
        .error (.protocol .noData) := by
  intro h payload
  have hpieces : ∀ p ∈ [h.write, payload], p.size ≠ 0 := by
    simp only [List.forall_mem_cons]
    refine ⟨?_, ?_, List.forall_mem_nil _⟩
    · rw [size_write]
      exact Nat.succ_ne_zero _
    · rw [Wire.size_writeMessage]
      exact Nat.succ_ne_zero _
  have hjoined : Wire.joined [h.write, payload] = h.write ++ payload :=
    congrArg (h.write ++ ·) ByteArray.append_empty
  have hgreet := greet_write_of_eq size_longest payload ["/echo"]
  rw [← hjoined] at hgreet
  obtain ⟨rest, left, hlisten⟩ :=
    exists_listen_of_greet hpieces (hgreet.trans (if_pos (by decide)))
  obtain ⟨-, -, hread⟩ := line_break_reaches_handler hpieces hjoined size_longest hlisten
  have hpayload : Wire.readFirst UnlockRequest.codec payload = .ok ⟨"t", "L"⟩ := by
    rw [Wire.readFirst_writeMessage rfl (by decide)]
    rfl
  refine ⟨rest, left, hlisten, ?_, hpayload, hread _⟩
  intro hsame
  rw [← hsame, hread] at hpayload
  cases hpayload

end Hello

end TaskSwarm
