/-
The line of a message brings the message.

A message is its text and one line break (`writeMessage_eq`), so a reader finds
its line whatever follows it (`readFirst_append`). A message that was itself read
from somewhere is read from that line again if its numbers come back from their
text, it is not nested too deeply and its text is not too long
(`line_is_transparent`). Answers bring their result, even if it is null and so no
longer told from none, or their complaint.
-/
import TaskSwarm.Proofs.Json.Legible
import TaskSwarm.Proofs.Message.Reencoding
import TaskSwarm.Proofs.Wire.Line

set_option autoImplicit false

namespace TaskSwarm.Wire

variable {α : Type} {c : Codec α} {a : α}

/-! ## The line of a message -/

theorem length_textBytes (j : Json) : (textBytes j).length = j.render.utf8ByteSize := by
  rw [← String.size_toByteArray, Json.render, String.toByteArray_ofList, List.utf8Encode,
    List.size_toByteArray]
  rfl

/-- The only line break of a message is its last byte. -/
theorem newline_writeMessage (c : Codec α) (a : α) :
    (writeMessage c a).data.toList.count newline = 1 ∧
      (writeMessage c a).data.toList.getLast? = some newline := by
  rw [writeMessage_eq, List.data_toByteArray, List.toList_toArray, List.count_append,
    List.count_eq_zero_of_not_mem (newline_not_mem_textBytes (c.encode a))]
  simp

/-- What follows a message is not read with it. -/
theorem readFirst_append (hsize : (writeMessage c a).size ≤ maxMessageSize) (rest : ByteArray) :
    readFirst c (writeMessage c a ++ rest) = readFirst c (writeMessage c a) := by
  have hlast := size_writeMessage c a
  have hlisted : listed (writeMessage c a ++ rest) =
      textBytes (c.encode a) ++ newline :: listed rest := by
    rw [listed_append, listed_writeMessage, List.append_assoc, List.singleton_append]
  have hline : lineLength (writeMessage c a ++ rest) 0
      (0 + min ((writeMessage c a ++ rest).size - 0) (maxMessageSize + 1)) =
      (writeMessage c a).size := by
    rw [lineLength_eq (by omega), hlisted, takeWhile_of_split (newline_not_mem_textBytes _),
      ByteArray.size_append]
    omega
  have hself : lineLength (writeMessage c a) 0
      (0 + min ((writeMessage c a).size - 0) (maxMessageSize + 1)) = (writeMessage c a).size := by
    rw [lineLength_writeMessage c a (by omega)]
    omega
  unfold readFirst readMessage
  simp only [hline, hself]
  rw [Nat.zero_add, ByteArray.extract_append_eq_left rfl, ByteArray.extract_zero_size]

/-- A message is read from its line, whatever follows, if its tree brings it. -/
theorem readFirst_of_decode {members : List (String × Json)} (hobj : c.encode a = .obj members)
    (hsize : (c.encode a).render.utf8ByteSize < maxMessageSize) {b : α}
    (hdecode : c.decode (.text Source.maxLevels) (c.encode a).tree = .ok b) (rest : ByteArray) :
    readFirst c (writeMessage c a ++ rest) = .ok b := by
  have hsize : (writeMessage c a).size ≤ maxMessageSize := by
    rw [size_writeMessage, length_textBytes]
    exact hsize
  rw [readFirst_append hsize, readFirst_writeMessage hobj hsize, hdecode]
  rfl

theorem readFirst_of_keeps {members : List (String × Json)} (hkeeps : c.Keeps a)
    (hobj : c.encode a = .obj members) (hnumbers : (c.encode a).Legible)
    (hdepth : (c.encode a).depth < Source.maxLevels)
    (hsize : (c.encode a).render.utf8ByteSize < maxMessageSize) (rest : ByteArray) :
    readFirst c (writeMessage c a ++ rest) = .ok a :=
  readFirst_of_decode hobj hsize (hkeeps.reads _ _ (Json.conveys_tree _ hnumbers hdepth)) rest

/-! ## Messages that were read -/

/-- A message that was read, from a value in memory or from the bytes a peer sent. -/
inductive WasRead (c : Codec α) (a : α) : Prop
  | value (v : Json) : c.ofJson v = .ok a → WasRead c a
  | line (bytes : ByteArray) (start : Nat) : (readMessage c bytes start).1 = .ok a → WasRead c a

theorem exists_decode_of_ofChars {cs : List Char} (h : c.ofChars cs = .ok a) :
    ∃ d, d.Wordless ∧ c.decode (.text Source.maxLevels) d = .ok a := by
  have hbind : (c.decode (.text Source.maxLevels) (Json.scan cs).1 >>= fun a =>
      if (Json.skipSpace (Json.scan cs).2).isEmpty then pure a
      else .error (.malformed .trailingCharacters)) = .ok a := h
  obtain ⟨b, hdecode, hend⟩ := exists_of_bind_eq_ok hbind
  cases hempty : (Json.skipSpace (Json.scan cs).2).isEmpty with
  | true =>
    rw [hempty] at hend
    cases hend
    exact ⟨_, Json.wordless_scan cs, hdecode⟩
  | false =>
    rw [hempty] at hend
    cases hend

theorem exists_chars_of_readLine {line : ByteArray} (h : readLine c line = .ok a) :
    ∃ cs, c.ofChars cs = .ok a := by
  unfold readLine at h
  split at h
  · cases h
  · next text _ =>
    split at h
    · cases h
    · simp only at h
      split at h
      · cases h
      · refine ⟨Text.trim text.toList, ?_⟩
        cases hread : c.ofChars (Text.trim text.toList) with
        | error e =>
          rw [hread] at h
          cases h
        | ok b =>
          rw [hread] at h
          cases h
          rfl

theorem WasRead.keeps (hc : c.Faithful) (h : WasRead c a) : c.Keeps a := by
  cases h with
  | value v h => exact hc _ _ a (Document.wordless_ofJson v) h
  | line bytes start h =>
    obtain ⟨cs, hread⟩ := exists_chars_of_readLine h
    obtain ⟨d, hd, hdecode⟩ := exists_decode_of_ofChars hread
    exact hc _ d a hd hdecode

/-- The messages that nodes exchange. -/
inductive Message : {α : Type} → Codec α → Prop
  | request : Message Request.codec
  | response : Message Response.codec
  | proposal : Message Proposal.codec
  | acceptance : Message Acceptance.codec
  | status : Message StatusUpdate.codec
  | result : Message TaskResult.codec
  | cancellation : Message Cancellation.codec
  | lockRequest : Message LockRequest.codec
  | lockAnswer : Message LockAnswer.codec
  | unlockRequest : Message UnlockRequest.codec
  | unlockAnswer : Message UnlockAnswer.codec

theorem Message.faithful (h : Message c) : c.Faithful := by
  cases h with
  | request => exact Request.faithful_codec
  | response => exact Response.faithful_codec
  | proposal => exact Proposal.faithful_codec
  | acceptance => exact Acceptance.faithful_codec
  | status => exact StatusUpdate.faithful_codec
  | result => exact TaskResult.faithful_codec
  | cancellation => exact Cancellation.faithful_codec
  | lockRequest => exact LockRequest.faithful_codec
  | lockAnswer => exact LockAnswer.faithful_codec
  | unlockRequest => exact UnlockRequest.faithful_codec
  | unlockAnswer => exact UnlockAnswer.faithful_codec

theorem Message.exists_members (h : Message c) (a : α) : ∃ members, c.encode a = .obj members := by
  cases h <;> exact ⟨_, rfl⟩

/-! ## Answers -/

/-- A value that may be missing is read as missing if it is null. -/
theorem decode_option_json {result : Option Json} (h : ∀ v, result = some v → v.Ordered) {s : Source}
    {d : Document} (hconveys : Conveys s (Codec.json.option.encode result) d) :
    Codec.json.option.decode s d = .ok (result.filter (· ≠ .null)) := by
  cases result with
  | none => exact (Codec.keeps_none _).reads s d hconveys
  | some v =>
    by_cases hnull : v = .null
    · subst hnull
      exact (Codec.keeps_none Codec.json).reads s d hconveys
    · rw [((Codec.keeps_json (h v rfl)).some hnull).reads s d hconveys]
      simp [Option.filter, hnull]

theorem keeps_option_string (message : Option String) : Codec.string.option.Keeps message := by
  cases message with
  | none => exact Codec.keeps_none _
  | some text => exact (Codec.keeps_textAs _ text).some nofun

/-- A response is read as it was written, but for a result of null, which is read as none. -/
theorem decode_response {r : Response} (hresult : ∀ v, r.result = some v → v.Ordered) {s : Source}
    {d : Document} (h : Conveys s (Response.codec.encode r) d) :
    Response.codec.decode s d =
      .ok ⟨r.status, r.result.filter (· ≠ .null), r.message, r.timestamp⟩ := by
  have hstatus : ResponseStatus.codec.Keeps r.status :=
    Codec.keeps_oneOf (by decide) (by cases r.status <;> decide)
  have hfields := Fields.decode_of_conveys (a := (r.status, r.result, r.message, r.timestamp, ()))
    (b := (r.status, r.result.filter (· ≠ .null), r.message, r.timestamp, ())) ?_ ?_
    "ResponseEnvelope" h
  · exact congrArg (Except.map _) hfields
  · decide
  · refine ⟨hstatus.reads, ?_, ?_, (Codec.keeps_int64 _).reads, trivial⟩
    · split
      · next hnone => rw [Option.isNone_iff_eq_none.1 hnone]; rfl
      · exact fun s d hconveys => decode_option_json hresult hconveys
    · split
      · next hnone => rw [Option.isNone_iff_eq_none.1 hnone]; rfl
      · exact (keeps_option_string r.message).reads

/-- What a peer answered, as it is read from the line it wrote. -/
def answered (peer : PeerId) (bytes : ByteArray) : Outcome Json := do
  let response ← readFirst Response.codec bytes
  response.outcome peer

/-- A response is read from its line, and what came of the request with it. -/
theorem answered_response {r : Response} (hresult : ∀ v, r.result = some v → v.Ordered)
    (hnumbers : (Response.codec.encode r).Legible)
    (hdepth : (Response.codec.encode r).depth < Source.maxLevels)
    (hsize : (Response.codec.encode r).render.utf8ByteSize < maxMessageSize) (peer : PeerId)
    (rest : ByteArray) :
    answered peer (writeMessage Response.codec r ++ rest) = r.outcome peer := by
  have hdecode := decode_response hresult (Json.conveys_tree _ hnumbers hdepth)
  have hread := readFirst_of_decode rfl hsize hdecode rest
  unfold answered
  rw [hread]
  obtain ⟨status, result, message, now⟩ := r
  cases status with
  | error => rfl
  | ok =>
    cases result with
    | none => rfl
    | some v => by_cases hnull : v = .null <;> simp [Response.outcome, Option.filter, hnull, bind, Except.bind]

theorem legible_time (t : Int64) : (Json.int t.toInt).Legible := by
  have hle := t.le_toInt
  have hlt := t.toInt_lt
  exact ⟨by omega, by omega⟩

theorem answered_ok {v : Json} (hv : v.Ordered) (hnumbers : v.Legible)
    (hdepth : v.depth + 1 < Source.maxLevels) {now : Int64}
    (hsize : (Response.codec.encode (.ok v now)).render.utf8ByteSize < maxMessageSize) (peer : PeerId)
    (rest : ByteArray) : answered peer (writeMessage Response.codec (.ok v now) ++ rest) = .ok v := by
  have hencode : Response.codec.encode (.ok v now) =
      .obj [("status", .str "ok"), ("result", v), ("timestamp", .int now.toInt)] := rfl
  have hresult : ∀ w, (Response.ok v now).result = some w → w.Ordered := by
    rintro _ ⟨⟩
    exact hv
  rw [answered_response hresult ?_ ?_ hsize]
  · rfl
  · rw [hencode]
    exact ⟨trivial, hnumbers, legible_time now, trivial⟩
  · rw [hencode]
    simpa [Json.depth, Json.membersDepth, Json.int] using hdepth

theorem answered_error {m : String} {now : Int64}
    (hsize : (Response.codec.encode (.error m now)).render.utf8ByteSize < maxMessageSize)
    (peer : PeerId) (rest : ByteArray) :
    answered peer (writeMessage Response.codec (.error m now) ++ rest) =
      .error (.rejected peer m) := by
  have hencode : Response.codec.encode (.error m now) =
      .obj [("status", .str "error"), ("message", .str m), ("timestamp", .int now.toInt)] := rfl
  rw [answered_response (fun _ h => by cases h) ?_ ?_ hsize]
  · rfl
  · rw [hencode]
    exact ⟨trivial, trivial, legible_time now, trivial⟩
  · rw [hencode]
    simp [Json.depth, Json.membersDepth, Json.int, Source.maxLevels]

/-! ## The line is transparent -/

/-- A message ends with its only line break. One that was read before is read from its line again,
whatever follows it, and so are the result and the complaint that a response carries. -/
theorem line_is_transparent :
    (∀ {α : Type} (c : Codec α) (x : α), Message c →
      ((writeMessage c x).data.toList.count newline = 1 ∧
        (writeMessage c x).data.toList.getLast? = some newline) ∧
      (WasRead c x → (c.encode x).Legible → (c.encode x).depth < Source.maxLevels →
        (c.encode x).render.utf8ByteSize < maxMessageSize →
        ∀ rest, readFirst c (writeMessage c x ++ rest) = .ok x)) ∧
    (∀ v now peer rest, v.Ordered → v.Legible → v.depth + 1 < Source.maxLevels →
      (Response.codec.encode (.ok v now)).render.utf8ByteSize < maxMessageSize →
      answered peer (writeMessage Response.codec (.ok v now) ++ rest) = .ok v) ∧
    (∀ m now peer rest,
      (Response.codec.encode (.error m now)).render.utf8ByteSize < maxMessageSize →
      answered peer (writeMessage Response.codec (.error m now) ++ rest) =
        .error (.rejected peer m)) := by
  refine ⟨fun c x hc => ⟨newline_writeMessage c x, ?_⟩, ?_, ?_⟩
  · intro hread hnumbers hdepth hsize rest
    obtain ⟨members, hobj⟩ := hc.exists_members x
    exact readFirst_of_keeps (hread.keeps hc.faithful) hobj hnumbers hdepth hsize rest
  · exact fun v now peer rest hv hnumbers hdepth hsize =>
      answered_ok hv hnumbers hdepth hsize peer rest
  · exact fun m now peer rest hsize => answered_error hsize peer rest

/-- A name with a line break in it crosses the line before bytes that are no text, and so do a
result of null and an empty complaint. -/
theorem line_break_crosses_line :
    let message : UnlockRequest := ⟨"a\nb", "\"é"⟩
    let rest : ByteArray := [0xff, 10].toByteArray
    readFirst UnlockRequest.codec (writeMessage UnlockRequest.codec message ++ rest) = .ok message ∧
      answered "p" (writeMessage Response.codec (.ok .null 0) ++ rest) = .ok .null ∧
      answered "p" (writeMessage Response.codec (.error "" 0) ++ rest) = .error (.rejected "p" "") := by
  have hread : WasRead UnlockRequest.codec ⟨"a\nb", "\"é"⟩ :=
    .value (.obj [("lockId", .str "\"é"), ("proposalId", .str "a\nb")]) rfl
  exact ⟨(line_is_transparent.1 _ _ .unlockRequest).2 hread ⟨trivial, trivial, trivial⟩ (by decide)
      (by decide) _,
    line_is_transparent.2.1 _ _ _ _ trivial trivial (by decide) (by decide),
    line_is_transparent.2.2 _ _ _ _ (by decide)⟩

end TaskSwarm.Wire
