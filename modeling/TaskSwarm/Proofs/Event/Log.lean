/-
What is read back of a log.

An entry is found in its line if a reader may enter all its levels, and otherwise
nothing is found there (`entry?_lineOf`). Sessions, entries and stray lines each add
their line to the log, or none (`stands_acts`). So all entries that are not nested too
deeply are read back in their order, among those of other lines, as long as every line
is a text; a log with one that is not is not read at all (`log_recovered`).
-/
import TaskSwarm.Proofs.Event.Lines
import TaskSwarm.Proofs.Event.Moment
import TaskSwarm.Proofs.Wire.Framing

set_option autoImplicit false

namespace TaskSwarm

/-! ## Levels of an entry -/

namespace Variant

variable {α : Type} {family tag : String} {variants : List (Variant α)} {levels : Nat}

theorem depth_of_decodeName {j : Json} {v : Variant α} (h : decodeName variants j.tree = .ok v) :
    j.depth = 0 := by
  cases j with
  | arr items => cases h
  | obj members => cases h
  | _ => rfl

/-- Who looks for the kind of a record takes in all its members on the way. -/
theorem membersDepth_lt_of_findName {ms : List (String × Json)} (hpos : 0 < levels)
    {found : Option (Variant α)} {r : Option (Variant α) × List (Literal × Document)}
    (h : findName tag variants (.text levels) found (Json.memberTrees ms) = .ok r) :
    Json.membersDepth ms < levels := by
  induction ms generalizing found r with
  | nil => exact hpos
  | cons m ms ih =>
    obtain ⟨k, v⟩ := m
    simp only [Json.memberTrees, findName, literal_plain] at h
    obtain ⟨key, hkey, h⟩ := exists_of_bind_eq_ok h
    cases hkey
    refine Nat.max_lt.2 ?_
    split at h
    · split at h
      · cases h
      · obtain ⟨kind, hname, h⟩ := exists_of_bind_eq_ok h
        exact ⟨depth_of_decodeName hname ▸ hpos, ih h⟩
    · obtain ⟨j, hvalue, h⟩ := exists_of_bind_eq_ok h
      obtain ⟨rest, hrest, -⟩ := exists_of_bind_eq_ok h
      exact ⟨Json.depth_lt_of_toJson v hpos hvalue, ih hrest⟩

theorem depth_lt_of_decode {a b : α}
    (h : (codec family tag variants).decode (.text levels)
      ((codec family tag variants).encode a).tree = .ok b) :
    ((codec family tag variants).encode a).depth < levels := by
  obtain ⟨inner, henter, h⟩ := exists_of_bind_eq_ok h
  obtain ⟨found, hfound, -⟩ := exists_of_bind_eq_ok h
  obtain ⟨hlevels, rfl⟩ := Json.enter_text_eq_ok_iff.1 henter
  have hdepth := membersDepth_lt_of_findName (by omega) hfound
  show Json.membersDepth _ + 1 < levels
  omega

end Variant

namespace LogEntry

variable {e : LogEntry}

theorem encode_eq (e : LogEntry) : codec.encode e =
    .obj [("ts", .str e.time.render), ("node", .str e.node), ("event", NodeEvent.codec.encode e.event)] :=
  rfl

theorem depth_encode (e : LogEntry) :
    (codec.encode e).depth = (NodeEvent.codec.encode e.event).depth + 1 := by
  simp [encode_eq, Json.depth, Json.membersDepth]

/-- An entry is read from whatever conveys it, if its time is a plain one. -/
theorem decode_of_conveys (htime : e.time.IsPlain) (hevent : NodeEvent.codec.Keeps e.event)
    {s : Source} {d : Document} (h : Conveys s (codec.encode e) d) : codec.decode s d = .ok e := by
  have hmoment : ∀ s d, Conveys s (.str e.time.render) d → Moment.codec.decode s d = .ok e.time := by
    intro s d hconveys
    cases hconveys
    simp [Moment.codec, Codec.textAs, literal_plain, Moment.read?_render htime, bind, Except.bind]
  have hfields := Fields.decode_of_conveys (a := (e.time, e.node, e.event, ()))
    (b := (e.time, e.node, e.event, ())) ?_ ?_ "EventLogEntry" h
  · exact congrArg (Except.map _) hfields
  · decide
  · exact ⟨hmoment, (Codec.keeps_textAs _ _).reads, hevent.reads, trivial⟩

/-- An entry is read from its text only by a reader who may enter all its levels. -/
theorem depth_lt_of_decode {levels : Nat} {a : LogEntry}
    (h : codec.decode (.text levels) (codec.encode e).tree = .ok a) :
    (codec.encode e).depth < levels := by
  obtain ⟨parts, hparts, -⟩ := exists_of_map_eq_ok h
  rw [encode_eq, Json.tree] at hparts
  obtain ⟨inner, henter, -, -, hevent | habsent, -⟩ := Fields.reads_of_decode hparts
  · obtain ⟨hlevels, rfl⟩ := Json.enter_text_eq_ok_iff.1 henter
    obtain ⟨l, d, key, hmem, hkey, hanswers, hdecode⟩ := hevent
    obtain rfl : key = "event" := RecordField.eq_of_answers_required hanswers
    -- Of the members only that of the event is read under its name.
    have hd : d = (NodeEvent.codec.encode e.event).tree := by
      simp only [Json.memberTrees, List.mem_cons, List.not_mem_nil, or_false, Prod.mk.injEq] at hmem
      obtain ⟨rfl, -⟩ | ⟨rfl, -⟩ | ⟨-, rfl⟩ := hmem
      · exact absurd (Except.ok.inj hkey) (by decide)
      · exact absurd (Except.ok.inj hkey) (by decide)
      · rfl
    subst hd
    have hdepth : (NodeEvent.codec.encode e.event).depth < levels - 1 :=
      Variant.depth_lt_of_decode hdecode
    rw [depth_encode]
    omega
  · cases habsent

theorem chars_encode (e : LogEntry) : ∃ cs, (codec.encode e).chars = '{' :: cs ++ ['}'] := by
  rw [encode_eq, Json.chars]
  exact ⟨_, rfl⟩

theorem newline_not_mem_render (e : LogEntry) : '\n' ∉ (codec.encode e).render.toList := by
  rw [Json.render, String.toList_ofList]
  exact Json.newline_not_mem_chars _

/-- The line of an entry, its line break left out. -/
def lineOf (e : LogEntry) : EventLog.Line :=
  .ofText (codec.encode e).render (newline_not_mem_render e)

/-- An entry is found in its line if a reader may enter all its levels, and otherwise nothing is. -/
theorem entry?_lineOf (htime : e.time.IsPlain) (hevent : NodeEvent.codec.Keeps e.event)
    (hnumbers : (NodeEvent.codec.encode e.event).Legible) :
    e.lineOf.entry? = if (codec.encode e).depth < Source.maxLevels then some e else none := by
  obtain ⟨cs, hchars⟩ := chars_encode e
  have htext : (codec.encode e).render.toList = (codec.encode e).chars := String.toList_ofList
  have hreturn : EventLog.Line.withoutReturn (codec.encode e).render = (codec.encode e).render := by
    rw [EventLog.Line.withoutReturn, htext, hchars, List.getLast?_concat, if_neg (by decide),
      ← hchars, ← htext, String.ofList_toList]
  have hblank : Text.isBlankText (codec.encode e).render = false := by
    rw [Text.isBlankText, htext, hchars, List.cons_append, List.all_cons]
    simp [show Text.isBlank '{' = false by decide]
  have hread : EventLog.entry? (codec.encode e).render =
      (codec.decode (.text Source.maxLevels) (codec.encode e).tree).toOption := by
    rw [EventLog.entry?, hblank, htext, Wire.ofChars_chars]
    exact if_neg Bool.false_ne_true
  rw [lineOf, EventLog.Line.entry?_ofText, hreturn, hread]
  split
  · next hdepth =>
    have hlegible : (codec.encode e).Legible := ⟨trivial, trivial, hnumbers, trivial⟩
    rw [decode_of_conveys htime hevent (Json.conveys_tree _ hlegible hdepth)]
    rfl
  · next hdepth =>
    cases hdeep : codec.decode (.text Source.maxLevels) (codec.encode e).tree with
    | error fault => rfl
    | ok a => exact absurd (depth_lt_of_decode hdeep) hdepth

theorem line_toUTF8 (e : LogEntry) : e.line.toUTF8 = e.lineOf.bytes.push Wire.newline := by
  rw [line, lineOf, EventLog.Line.toUTF8_append_newline]

theorem isText_lineOf (e : LogEntry) : e.lineOf.isText = true := by
  rw [lineOf, EventLog.Line.isText_ofText]

end LogEntry

/-! ## What happens to a log -/

namespace EventLog

/-- Something that happens to the log of a node. -/
inductive Act
  /-- A session begins. -/
  | opened
  /-- An entry is written. -/
  | wrote (time : Moment) (event : NodeEvent)
  /-- A line comes in that is not written as an entry. -/
  | strayed (line : Line)

namespace Act

variable {directory : String} {node : PeerId} {fs before opened : Files} {lines : List Line}

/-- What an act makes of the files. -/
def perform (directory : String) (node : PeerId) (fs : Files) : Act → Except IoFault Files
  | .opened => create fs directory node
  | .wrote time event => write fs directory ⟨time, node, event⟩
  | .strayed line => fs.append (path directory node) (line.bytes.push Wire.newline)

/-- The line that an act adds. -/
def line? (node : PeerId) : Act → Option Line
  | .opened => none
  | .wrote time event => some (LogEntry.lineOf ⟨time, node, event⟩)
  | .strayed line => some line

/-- The entry that is found in the line of an act. -/
def entry? (node : PeerId) : Act → Option LogEntry
  | .opened => none
  | .wrote time event =>
    let e : LogEntry := ⟨time, node, event⟩
    if (LogEntry.codec.encode e).depth < Source.maxLevels then some e else none
  | .strayed line => line.entry?

/-- Whether an act leaves the log a text. -/
def isText : Act → Bool
  | .opened => true
  | .wrote _ _ => true
  | .strayed line => line.isText

/-- A log that was opened has these lines. -/
structure Stands (directory : String) (node : PeerId) (opened fs : Files) (lines : List Line) : Prop where
  read : fs.read (path directory node) = .ok (joined lines)
  keeps : opened.KeepsDirectories fs

theorem Stands.append (h : Stands directory node opened fs lines) (more : List Line) :
    ∃ after, fs.append (path directory node) (joined more) = .ok after ∧
      Stands directory node opened after (lines ++ more) := by
  obtain ⟨after, hwrite⟩ := Files.exists_write_of_read h.read (joined lines ++ joined more)
  refine ⟨after, (Files.append_eq_write h.read _).trans hwrite, ?_, ?_⟩
  · rw [joined_append]
    exact Files.read_of_write hwrite
  · exact fun q hq => Files.keepsDirectories_of_write hwrite q (h.keeps q hq)

theorem joined_singleton (line : Line) : joined [line] = line.bytes.push Wire.newline := by
  simp [joined]

/-- Every act succeeds once the log was opened, and adds its line. -/
theorem stands_perform (hopen : create before directory node = .ok opened)
    (h : Stands directory node opened fs lines) (act : Act) :
    ∃ after, act.perform directory node fs = .ok after ∧
      Stands directory node opened after (lines ++ (act.line? node).toList) := by
  cases act with
  | opened =>
    obtain ⟨made, hmade, hopened⟩ := exists_of_bind_eq_ok hopen
    obtain ⟨data, hwrite⟩ := Files.exists_write_of_append hopened
    have hagain : fs.makeDirectories directory = .ok fs :=
      Files.makeDirectories_again hmade
        fun q hq => h.keeps q (Files.keepsDirectories_of_write hwrite q hq)
    obtain ⟨after, happend, hstands⟩ := h.append []
    refine ⟨after, ?_, hstands⟩
    rw [perform, create, hagain]
    exact happend
  | wrote time event =>
    obtain ⟨after, happend, hstands⟩ := h.append [LogEntry.lineOf ⟨time, node, event⟩]
    refine ⟨after, ?_, hstands⟩
    rw [joined_singleton, ← LogEntry.line_toUTF8] at happend
    exact happend
  | strayed line =>
    obtain ⟨after, happend, hstands⟩ := h.append [line]
    refine ⟨after, ?_, hstands⟩
    rw [joined_singleton] at happend
    exact happend

/-- Acts succeed one after the other, and the log has their lines. -/
theorem stands_acts (hopen : create before directory node = .ok opened)
    (h : Stands directory node opened fs lines) (acts : List Act) :
    ∃ after, acts.foldlM (perform directory node) fs = .ok after ∧
      Stands directory node opened after (lines ++ acts.filterMap (line? node)) := by
  induction acts generalizing fs lines with
  | nil => exact ⟨fs, rfl, by simpa using h⟩
  | cons act acts ih =>
    obtain ⟨between, hperform, hbetween⟩ := stands_perform hopen h act
    obtain ⟨after, hrest, hafter⟩ := ih hbetween
    refine ⟨after, ?_, ?_⟩
    · rw [List.foldlM_cons, hperform]
      exact hrest
    · rw [List.append_assoc] at hafter
      cases hline : act.line? node <;> simpa [List.filterMap_cons, hline] using hafter

theorem all_isText (acts : List Act) (node : PeerId) :
    (acts.filterMap (line? node)).all Line.isText = acts.all isText := by
  induction acts with
  | nil => rfl
  | cons act acts ih =>
    cases act with
    | opened => simpa [List.filterMap_cons, line?, isText] using ih
    | wrote time event =>
      have htext := LogEntry.isText_lineOf ⟨time, node, event⟩
      rw [List.filterMap_cons, line?, List.all_cons, List.all_cons, htext, ih, isText]
    | strayed line => simp [line?, isText, ih]

end Act

/-- Whatever happened to a log since it was first opened, its entries are found again in the order
in which they were written, each with its event, and between them those of other lines that hold an
entry, unless some line is no text: then nothing is read. Of the entries those are missing that are
nested too deeply for a reader. -/
theorem log_recovered {directory : String} {node : PeerId} {before opened : Files}
    (hopen : create before directory node = .ok opened)
    (hnew : opened.read (path directory node) = .ok .empty) (acts : List Act)
    (hwritten : ∀ time event, .wrote time event ∈ acts → time.IsPlain ∧
      Wire.WasRead NodeEvent.codec event ∧ (NodeEvent.codec.encode event).Legible) :
    ∃ after, acts.foldlM (Act.perform directory node) opened = .ok after ∧
      EventLog.read after directory node =
        if acts.all Act.isText then .ok (acts.filterMap (Act.entry? node))
        else .error .notTextFile := by
  have hstands : Act.Stands directory node opened opened [] := ⟨hnew, fun _ hq => hq⟩
  obtain ⟨after, hacts, hafter⟩ := Act.stands_acts hopen hstands acts
  refine ⟨after, hacts, ?_⟩
  have hentries : acts.filterMap (fun act => (act.line? node).bind Line.entry?) =
      acts.filterMap (Act.entry? node) := by
    refine List.filterMap_congr fun act hact => ?_
    cases act with
    | opened => rfl
    | strayed line => rfl
    | wrote time event =>
      obtain ⟨htime, hread, hnumbers⟩ := hwritten time event hact
      have hfound := LogEntry.entry?_lineOf (e := ⟨time, node, event⟩) htime
        (hread.keeps NodeEvent.faithful_codec) hnumbers
      rw [Act.line?, Option.bind_some, hfound, Act.entry?]
  rw [read_of_joined hafter.read, List.nil_append, Act.all_isText, List.filterMap_filterMap, hentries]

/-- Two sessions, and a line that is no entry between them. -/
def twoSessions : List Act :=
  [.wrote (.ofMillis 0) (.proposalCancelled "p"), .strayed (.ofText "not json" (by decide)), .opened,
    .wrote (.ofMillis 1) (.taskStarted "p" "n")]

/-- The entries of both sessions are found, and nothing in the line between them. -/
theorem two_sessions_recovered : ∃ opened after, create .empty "log" "n" = .ok opened ∧
    twoSessions.foldlM (Act.perform "log" "n") opened = .ok after ∧
    EventLog.read after "log" "n" = .ok [⟨.ofMillis 0, "n", .proposalCancelled "p"⟩,
      ⟨.ofMillis 1, "n", .taskStarted "p" "n"⟩] := by
  obtain ⟨opened, hopen, hnew⟩ : ∃ opened, create .empty "log" "n" = .ok opened ∧
      opened.read (path "log" "n") = .ok .empty := ⟨_, rfl, rfl⟩
  have hwritten : ∀ time event, Act.wrote time event ∈ twoSessions → time.IsPlain ∧
      Wire.WasRead NodeEvent.codec event ∧ (NodeEvent.codec.encode event).Legible := by
    intro time event hmem
    simp only [twoSessions, List.mem_cons, Act.wrote.injEq, List.not_mem_nil, or_false, reduceCtorEq,
      false_or] at hmem
    obtain ⟨rfl, rfl⟩ | ⟨rfl, rfl⟩ := hmem
    · exact ⟨by decide, .value (NodeEvent.codec.encode (.proposalCancelled "p")) rfl,
        trivial, trivial, trivial⟩
    · exact ⟨by decide, .value (NodeEvent.codec.encode (.taskStarted "p" "n")) rfl,
        trivial, trivial, trivial, trivial⟩
  obtain ⟨after, hacts, hafter⟩ := log_recovered hopen hnew twoSessions hwritten
  exact ⟨opened, after, hopen, hacts, hafter.trans rfl⟩

/-! ## A line that is no text -/

/-- A line that ends within a character. -/
def torn : Line := ⟨⟨#[0x7b, 0x7d, 0xff]⟩, by decide⟩

/-- One line that is no text hides the entry that was written before it. -/
theorem torn_line_hides_log : ∃ opened after,
    create .empty "log" "n" = .ok opened ∧
    [.wrote (.ofMillis 0) (.proposalCancelled "p"), .strayed torn].foldlM
      (Act.perform "log" "n") opened = .ok after ∧
    EventLog.read after "log" "n" = .error .notTextFile := by
  obtain ⟨opened, hopen, hnew⟩ : ∃ opened, create .empty "log" "n" = .ok opened ∧
      opened.read (path "log" "n") = .ok .empty := ⟨_, rfl, rfl⟩
  have hstands : Act.Stands "log" "n" opened opened [] := ⟨hnew, fun _ hq => hq⟩
  obtain ⟨after, hacts, hafter⟩ := Act.stands_acts hopen hstands
    [.wrote (.ofMillis 0) (.proposalCancelled "p"), .strayed torn]
  refine ⟨opened, after, hopen, hacts, ?_⟩
  rw [read_of_joined hafter.read, List.nil_append, Act.all_isText]
  rfl

end EventLog

end TaskSwarm
