/-
Moments.

A moment is counted in seconds from the beginning of 1970 in UTC, and written as
a date, a `T`, a time of day and a `Z`. A reader takes any offset from UTC and is
lenient about blanks and leading zeros. The second 60 of a leap minute is kept
apart from the first of the next one: its nanoseconds count on.
-/
import TaskSwarm.Decimal.Layout
import TaskSwarm.Document.Codec
import TaskSwarm.Text.Blank

set_option autoImplicit false

namespace TaskSwarm

/-- A point in time. -/
structure Moment where
  /-- Seconds since the beginning of 1970. -/
  seconds : Int
  /-- Nanoseconds since then; one second more stands for a leap second. -/
  nanos : Nat
  deriving DecidableEq, Repr

/-! ## Dates -/

/-- A day of the calendar. -/
structure CalendarDay where
  year : Int
  month : Nat
  day : Nat
  deriving DecidableEq, Repr

namespace CalendarDay

/-- Whether a year has a 29th of February. -/
def isLeapYear (y : Int) : Bool := y % 4 = 0 && (y % 100 ≠ 0 || y % 400 = 0)

/-- The number of days of a month. -/
def monthLength (y : Int) (m : Nat) : Nat :=
  if m = 2 then (if isLeapYear y then 29 else 28)
  else if m = 4 || m = 6 || m = 9 || m = 11 then 30 else 31

/-- Whether there is such a day. -/
def isValid (d : CalendarDay) : Bool :=
  -262143 ≤ d.year && d.year ≤ 262142 && 1 ≤ d.month && d.month ≤ 12 &&
    1 ≤ d.day && d.day ≤ monthLength d.year d.month

/-- Days from the beginning of 1970 to a day. Years are taken to begin in March, and 400 of them are an era. -/
def toDays (d : CalendarDay) : Int :=
  let y := if d.month ≤ 2 then d.year - 1 else d.year
  let era := y / 400
  let yearOfEra := y % 400
  let shifted : Int := (d.month + 9) % 12
  let dayOfYear := (153 * shifted + 2) / 5 + d.day - 1
  let dayOfEra := yearOfEra * 365 + yearOfEra / 4 - yearOfEra / 100 + dayOfYear
  era * 146097 + dayOfEra - 719468

/-- The day so many days after the beginning of 1970. -/
def ofDays (days : Int) : CalendarDay :=
  let z := days + 719468
  let era := z / 146097
  let dayOfEra := z % 146097
  let yearOfEra := (dayOfEra - dayOfEra / 1460 + dayOfEra / 36524 - dayOfEra / 146096) / 365
  let dayOfYear := dayOfEra - (365 * yearOfEra + yearOfEra / 4 - yearOfEra / 100)
  let shifted := (5 * dayOfYear + 2) / 153
  let day := dayOfYear - (153 * shifted + 2) / 5 + 1
  let month := if shifted < 10 then shifted + 3 else shifted - 9
  let year := yearOfEra + era * 400 + (if month ≤ 2 then 1 else 0)
  ⟨year, month.toNat, day.toNat⟩

end CalendarDay

namespace Moment

/-- The moment so many milliseconds after the beginning of 1970. -/
def ofMillis (millis : Int) : Moment := ⟨millis / 1000, (millis % 1000).toNat * 1000000⟩

/-! ## Writing -/

/-- The digits of a number, with zeros in front up to a width. -/
def padded (width n : Nat) : List Char :=
  let ds := Nat.toDigits 10 n
  List.replicate (width - ds.length) '0' ++ ds

/-- The digits of a year; beyond four of them, and before the year zero, it has a sign. -/
def yearChars (y : Int) : List Char :=
  if 0 ≤ y && y ≤ 9999 then padded 4 y.toNat
  else (if y < 0 then '-' else '+') :: padded 4 y.natAbs

/-- A fraction of a second in as few groups of three digits as hold it. -/
def fractionChars (nanos : Nat) : List Char :=
  if nanos = 0 then []
  else if nanos % 1000000 = 0 then '.' :: padded 3 (nanos / 1000000)
  else if nanos % 1000 = 0 then '.' :: padded 6 (nanos / 1000)
  else '.' :: padded 9 nanos

/-- The text of a moment. -/
def render (m : Moment) : String :=
  let day := CalendarDay.ofDays (m.seconds / 86400)
  let time := (m.seconds % 86400).toNat
  let second := time % 60 + m.nanos / 1000000000
  String.ofList (yearChars day.year ++ '-' :: padded 2 day.month ++ '-' :: padded 2 day.day ++
    'T' :: padded 2 (time / 3600) ++ ':' :: padded 2 (time / 60 % 60) ++ ':' :: padded 2 second ++
    fractionChars (m.nanos % 1000000000) ++ ['Z'])

/-! ## Reading -/

/-- The text without the blanks it starts with. -/
def dropBlanks (cs : List Char) : List Char := cs.dropWhile Text.isBlank

/-- A number of at least one and at most `width` digits. -/
def readNumber (width : Nat) (cs : List Char) : Option (Nat × List Char) :=
  let (ds, _) := Decimal.spanDigits (cs.take width)
  if ds.isEmpty then none else some (Decimal.natOfDigits ds, cs.drop ds.length)

/-- A number after blanks. -/
def readPart (width : Nat) (cs : List Char) : Option (Nat × List Char) := readNumber width (dropBlanks cs)

/-- A given character after blanks. -/
def readMark (mark : Char) (cs : List Char) : Option (List Char) :=
  match dropBlanks cs with
  | c :: rest => if c = mark then some rest else none
  | [] => none

/-- A year: four digits, or any number of them after a sign. -/
def readYear (cs : List Char) : Option (Int × List Char) :=
  match dropBlanks cs with
  | '-' :: rest => (readNumber rest.length rest).map fun (n, cs) => (-(n : Int), cs)
  | '+' :: rest => (readNumber rest.length rest).map fun (n, cs) => ((n : Int), cs)
  | cs => (readNumber 4 cs).map fun (n, cs) => ((n : Int), cs)

/-- A date. -/
def readDay (cs : List Char) : Option (CalendarDay × List Char) := do
  let (year, cs) ← readYear cs
  let cs ← readMark '-' cs
  let (month, cs) ← readPart 2 cs
  let cs ← readMark '-' cs
  let (day, cs) ← readPart 2 cs
  let d : CalendarDay := ⟨year, month, day⟩
  if d.isValid then some (d, cs) else none

/-- A fraction of a second in nanoseconds; what is finer is dropped. -/
def readFraction : List Char → Option (Nat × List Char)
  | '.' :: cs =>
    let (ds, rest) := Decimal.spanDigits cs
    if ds.isEmpty then none
    else
      let kept := ds.take 9
      some (Decimal.natOfDigits kept * Nat.pow 10 (9 - kept.length), rest)
  | cs => some (0, cs)

/-- A time of day: its seconds and nanoseconds. -/
def readTime (cs : List Char) : Option (Nat × Nat × List Char) := do
  let (hour, cs) ← readPart 2 cs
  let cs ← readMark ':' cs
  let (minute, cs) ← readPart 2 cs
  let cs ← readMark ':' cs
  let (second, cs) ← readPart 2 cs
  let (nanos, cs) ← readFraction cs
  if hour < 24 && minute < 60 && second ≤ 60 then
    let whole := min second 59
    some (hour * 3600 + minute * 60 + whole, nanos + (second - whole) * 1000000000, cs)
  else none

/-- Two digits. -/
def readTwo : List Char → Option (Nat × List Char)
  | a :: b :: rest =>
    if a.isDigit && b.isDigit then some (Decimal.natOfDigits [a, b], rest) else none
  | _ => none

/-- An offset from UTC in seconds. -/
def readOffset (cs : List Char) : Option (Int × List Char) :=
  let signed (sign : Int) (cs : List Char) : Option (Int × List Char) := do
    let (hours, cs) ← readTwo cs
    let (minutes, cs) ← readTwo (cs.dropWhile fun c => c = ':' || Text.isBlank c)
    if minutes < 60 && hours < 24 then some (sign * (hours * 3600 + minutes * 60), cs) else none
  match cs with
  | 'Z' :: rest | 'z' :: rest => some (0, rest)
  | '+' :: rest => signed 1 rest
  | '-' :: rest | '−' :: rest => signed (-1) rest
  | _ => none

/-- A zone: UTC by name, or an offset. -/
def readZone (cs : List Char) : Option (Int × List Char) :=
  match cs with
  | u :: t :: c :: rest =>
    if [u.toUpper, t.toUpper, c.toUpper] = ['U', 'T', 'C'] then some (0, rest) else readOffset cs
  | _ => readOffset cs

/-- The moment that a text names. -/
def read? (text : String) : Option Moment := do
  let (day, cs) ← readDay text.toList
  let cs ← match cs with
    | c :: rest => if c = 'T' || c = 't' || c = ' ' then some rest else none
    | [] => none
  let (time, nanos, cs) ← readTime cs
  let (offset, cs) ← readZone (dropBlanks cs)
  if (dropBlanks cs).isEmpty then
    some ⟨day.toDays * 86400 + time - offset, nanos⟩
  else none

/-- How moments are written. -/
def codec : Codec Moment where
  encode m := .str m.render
  decode s d := do
    let text ← (Codec.textAs "an RFC 3339 formatted date and time string").decode s d
    match read? text with
    | some m => .ok m
    | none => .error (.illFormed "input contains invalid characters")

end Moment

end TaskSwarm
