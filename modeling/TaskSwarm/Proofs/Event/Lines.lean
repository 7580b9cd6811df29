/-
The lines of a log.

A log is made of lines, those of entries and whatever else came between them. Its
bytes are a text if each of its lines is one, since a text is cut at a line break
where its bytes are (`exists_split_of_newline`). What is read of it is then what is
read of its lines, one by one, so that a line costs no other (`read_of_joined`).
-/
import Mathlib.Data.List.Basic
import TaskSwarm.Event.Log
import TaskSwarm.Proofs.Files.Tree
import TaskSwarm.Proofs.Wire.Line

set_option autoImplicit false

namespace TaskSwarm

/-! ## Lines of bytes -/

namespace Wire

/-- A text is cut at a line break where its bytes are. -/
theorem exists_split_of_newline {s : String} {a b : List UInt8} (ha : newline ∉ a)
    (h : listed s.toUTF8 = a ++ newline :: b) :
    ∃ front back : String, s.toList = front.toList ++ '\n' :: back.toList ∧
      listed front.toUTF8 = a ∧ listed back.toUTF8 = b := by
  have hmem : '\n' ∈ s.toList := newline_mem_listed_iff.1 (h ▸ by simp)
  obtain ⟨xs, ys, hchars, hxs⟩ := List.eq_append_cons_of_mem hmem
  have hfront : newline ∉ listed (String.ofList xs).toUTF8 := by
    rwa [newline_mem_listed_iff, String.toList_ofList]
  have hbytes : listed s.toUTF8 =
      listed (String.ofList xs).toUTF8 ++ newline :: listed (String.ofList ys).toUTF8 := by
    simp only [listed_toUTF8, String.toList_ofList, hchars, List.flatMap_append, List.flatMap_cons]
    rfl
  rw [hbytes] at h
  have hsame : listed (String.ofList xs).toUTF8 = a := by
    have hbefore := congrArg (List.takeWhile (· ≠ newline)) h
    rwa [takeWhile_of_split hfront, takeWhile_of_split ha] at hbefore
  rw [hsame] at h
  refine ⟨String.ofList xs, String.ofList ys, ?_, hsame,
    (List.cons.inj (List.append_cancel_left h)).2⟩
  rw [hchars, String.toList_ofList, String.toList_ofList]

end Wire

namespace EventLog

/-- A line of a file, its line break left out. -/
structure Line where
  bytes : ByteArray
  unbroken : Wire.newline ∉ Wire.listed bytes

namespace Line

/-- The line of a text without line breaks. -/
def ofText (text : String) (h : '\n' ∉ text.toList) : Line :=
  ⟨text.toUTF8, fun hmem => h (Wire.newline_mem_listed_iff.1 hmem)⟩

/-- Whether a line is a text. -/
def isText (line : Line) : Bool := (Text.decode line.bytes).isOk

/-- The text of a line as a reader takes it, without the carriage return it may end with. -/
def withoutReturn (text : String) : String :=
  String.ofList (if text.toList.getLast? = some '\r' then text.toList.dropLast else text.toList)

end Line

/-- The entry that the bytes of a line stand for, if they stand for one. -/
def entryOf? (bytes : ByteArray) : Option LogEntry :=
  match Text.decode bytes with
  | .ok text => entry? (Line.withoutReturn text)
  | .error _ => none

/-- The entry that a line holds, if it holds one. -/
def Line.entry? (line : Line) : Option LogEntry := entryOf? line.bytes

theorem entryOf?_toUTF8 (text : String) :
    entryOf? text.toUTF8 = entry? (Line.withoutReturn text) := by
  rw [entryOf?, Wire.decode_toUTF8]

/-- Lines, each with its line break. -/
def joined : List Line → ByteArray
  | [] => .empty
  | line :: lines => line.bytes.push Wire.newline ++ joined lines

/-- Texts as lines. -/
def unlines (texts : List String) : String :=
  String.ofList (texts.flatMap fun text => text.toList ++ ['\n'])

theorem Line.entry?_ofText {text : String} (h : '\n' ∉ text.toList) :
    Line.entry? (Line.ofText text h) = EventLog.entry? (Line.withoutReturn text) :=
  entryOf?_toUTF8 text

theorem Line.isText_ofText {text : String} (h : '\n' ∉ text.toList) :
    (Line.ofText text h).isText = true := by
  rw [Line.isText, Line.ofText, Wire.decode_toUTF8]
  rfl

theorem Line.toUTF8_append_newline {text : String} (h : '\n' ∉ text.toList) :
    (text ++ "\n").toUTF8 = (Line.ofText text h).bytes.push Wire.newline := by
  rw [Line.ofText, String.toUTF8_eq_toByteArray, String.toByteArray_append,
    ← ByteArray.append_toByteArray_singleton]
  rfl

variable {lines : List Line} {texts : List String} {s : String}

theorem listed_joined_cons (line : Line) (lines : List Line) : Wire.listed (joined (line :: lines)) =
    Wire.listed line.bytes ++ Wire.newline :: Wire.listed (joined lines) := by
  rw [joined, Wire.listed_append, Wire.listed_push, List.append_assoc, List.singleton_append]

theorem joined_append (lines more : List Line) : joined (lines ++ more) = joined lines ++ joined more := by
  induction lines with
  | nil => simp [joined]
  | cons line lines ih => rw [List.cons_append, joined, joined, ih, ByteArray.append_assoc]

theorem isText_iff {line : Line} : line.isText = true ↔ ∃ text : String, line.bytes = text.toUTF8 := by
  unfold Line.isText
  cases hdecode : Text.decode line.bytes with
  | ok text => exact ⟨fun _ => ⟨text, Wire.decode_eq_ok_iff_toUTF8.1 hdecode⟩, fun _ => rfl⟩
  | error fault =>
    refine ⟨nofun, ?_⟩
    rintro ⟨text, htext⟩
    rw [Wire.decode_eq_ok_iff_toUTF8.2 htext] at hdecode
    cases hdecode

/-! ## Lines that are texts -/

/-- Whether lines are these texts, one by one. -/
def AreTexts (lines : List Line) (texts : List String) : Prop :=
  lines.map Line.bytes = texts.map String.toUTF8

theorem exists_areTexts_iff : (∃ texts, AreTexts lines texts) ↔ lines.all Line.isText = true := by
  induction lines with
  | nil => exact ⟨fun _ => rfl, fun _ => ⟨[], rfl⟩⟩
  | cons line lines ih =>
    rw [List.all_cons, Bool.and_eq_true, ← ih, isText_iff]
    constructor
    · rintro ⟨texts, htexts⟩
      cases texts with
      | nil => cases htexts
      | cons text texts =>
        obtain ⟨hhead, htail⟩ := List.cons.inj htexts
        exact ⟨⟨text, hhead⟩, texts, htail⟩
    · rintro ⟨⟨text, hhead⟩, texts, htail⟩
      refine ⟨text :: texts, ?_⟩
      rw [AreTexts, List.map_cons, List.map_cons, hhead, htail]

/-- Lines that together are a text are texts. -/
theorem exists_areTexts_of_joined (h : joined lines = s.toUTF8) : ∃ texts, AreTexts lines texts := by
  induction lines generalizing s with
  | nil => exact ⟨[], rfl⟩
  | cons line lines ih =>
    have hlisted := congrArg Wire.listed h
    rw [listed_joined_cons] at hlisted
    obtain ⟨front, back, -, hfront, hback⟩ :=
      Wire.exists_split_of_newline line.unbroken hlisted.symm
    obtain ⟨texts, htexts⟩ := ih (Wire.listed_inj.1 hback).symm
    refine ⟨front :: texts, ?_⟩
    rw [AreTexts, List.map_cons, List.map_cons, htexts, Wire.listed_inj.1 hfront]

namespace AreTexts

theorem joined_eq (h : AreTexts lines texts) : joined lines = (unlines texts).toUTF8 := by
  induction lines generalizing texts with
  | nil =>
    obtain rfl : texts = [] := List.map_eq_nil_iff.1 h.symm
    rfl
  | cons line lines ih =>
    cases texts with
    | nil => cases h
    | cons text texts =>
      obtain ⟨hhead, htail⟩ := List.cons.inj h
      rw [← Wire.listed_inj, listed_joined_cons, hhead, ih htail]
      simp only [Wire.listed_toUTF8, unlines, String.toList_ofList, List.flatMap_cons,
        List.flatMap_append, List.append_assoc, List.flatMap_nil, List.append_nil]
      rfl

theorem unbroken (h : AreTexts lines texts) : ∀ text ∈ texts, '\n' ∉ text.toList := by
  intro text hmem hbreak
  have hbytes : text.toUTF8 ∈ lines.map Line.bytes := h ▸ List.mem_map_of_mem hmem
  obtain ⟨line, -, hline⟩ := List.mem_map.1 hbytes
  exact line.unbroken (hline ▸ Wire.newline_mem_listed_iff.2 hbreak)

theorem filterMap_eq (h : AreTexts lines texts) : lines.filterMap Line.entry? =
    texts.filterMap fun text => EventLog.entry? (Line.withoutReturn text) := by
  have hbytes : lines.filterMap Line.entry? = (lines.map Line.bytes).filterMap entryOf? := by
    rw [List.filterMap_map]
    rfl
  rw [hbytes, h, List.filterMap_map]
  exact congrArg (fun f => texts.filterMap f) (funext entryOf?_toUTF8)

end AreTexts

/-! ## What is read of lines -/

theorem splitOn_unlines (h : ∀ text ∈ texts, '\n' ∉ text.toList) :
    (unlines texts).toList.splitOn '\n' = texts.map String.toList ++ [[]] := by
  rw [unlines, String.toList_ofList]
  induction texts with
  | nil => rfl
  | cons text texts ih =>
    rw [List.flatMap_cons, List.append_assoc, List.singleton_append,
      List.splitOn_append_cons_self, List.splitOn_eq_singleton (h text List.mem_cons_self),
      ih fun t ht => h t (List.mem_cons_of_mem _ ht)]
    rfl

theorem entries_unlines (h : ∀ text ∈ texts, '\n' ∉ text.toList) : entries (unlines texts) =
    texts.filterMap fun text => EventLog.entry? (Line.withoutReturn text) := by
  have hlines : EventLog.lines (unlines texts) = texts.map Line.withoutReturn := by
    unfold EventLog.lines
    simp only [splitOn_unlines h, List.getLast?_append, List.getLast?_singleton]
    simp [Line.withoutReturn]
  rw [entries, hlines, List.filterMap_map]
  rfl

/-- What is read of lines is what is read of each of them, as long as all are texts. -/
theorem read_of_joined {fs : Files} {directory : String} {node : PeerId}
    (h : fs.read (path directory node) = .ok (joined lines)) :
    EventLog.read fs directory node =
      if lines.all Line.isText then .ok (lines.filterMap Line.entry?) else .error .notTextFile := by
  have hthere : fs.contains (path directory node) = true := by
    obtain ⟨q, hresolve, hq⟩ := Files.read_eq_ok_iff.1 h
    simp [Files.contains, Files.find, hresolve, hq, bind, Except.bind]
  unfold EventLog.read Files.readText
  rw [if_pos hthere, h]
  simp only [bind, Except.bind]
  split
  · next s hdecode =>
    obtain ⟨texts, htexts⟩ := exists_areTexts_of_joined (Wire.decode_eq_ok_iff_toUTF8.1 hdecode)
    rw [htexts.joined_eq, Wire.decode_toUTF8] at hdecode
    obtain rfl : unlines texts = s := Except.ok.inj hdecode
    rw [if_pos (exists_areTexts_iff.1 ⟨texts, htexts⟩), htexts.filterMap_eq, Except.map,
      entries_unlines htexts.unbroken]
  · next hdecode =>
    rw [if_neg, Except.map]
    intro hall
    obtain ⟨texts, htexts⟩ := exists_areTexts_iff.2 hall
    rw [htexts.joined_eq, Wire.decode_toUTF8] at hdecode
    cases hdecode

end EventLog

end TaskSwarm
