/-
Moments come back from their text.

The calendar first. A day so many days after the beginning of 1970 lies in an era of
400 years, so many centuries, groups of four years, years and days into it (`EraDay`).
From these `ofDays` has its day and `toDays` its number, so that a day is counted back
to what it was found from (`toDays_ofDays`), and it is one of the calendar
(`isValid_ofDays`). The text of a moment is then read part by part, each of them as the
digits it was written with and up to the mark that follows it (`read?_render`).
-/
import TaskSwarm.Event.Moment
import TaskSwarm.Proofs.Json.Scanner

set_option autoImplicit false

namespace TaskSwarm

/-! ## The calendar -/

namespace CalendarDay

/-- The day so many days after the first of March of a year. -/
def ofMarch (year dayOfYear : Int) : CalendarDay :=
  let shifted := (5 * dayOfYear + 2) / 153
  let month := if shifted < 10 then shifted + 3 else shifted - 9
  ⟨year + (if month ≤ 2 then 1 else 0), month.toNat,
    (dayOfYear - (153 * shifted + 2) / 5 + 1).toNat⟩

/-- A day of an era, by its century, its group of four years, the year of these and the day of
that year, which begins in March. -/
structure EraDay where
  century : Int
  group : Int
  year : Int
  day : Int
  century_mem : 0 ≤ century ∧ century ≤ 3
  group_mem : 0 ≤ group ∧ group ≤ 24
  year_mem : 0 ≤ year ∧ year ≤ 3
  day_mem : 0 ≤ day ∧ day ≤ 365
  /-- Only every fourth year ends with a 29th of February, and no century but the fourth does. -/
  leap : day = 365 → year = 3 ∧ (group = 24 → century = 3)

namespace EraDay

/-- The number of the day. -/
def number (e : EraDay) : Int := e.century * 36524 + e.group * 1461 + e.year * 365 + e.day

/-- The number of the year. -/
def yearOfEra (e : EraDay) : Int := e.century * 100 + e.group * 4 + e.year

theorem exists_number {n : Int} (hlow : 0 ≤ n) (hhigh : n < 146097) : ∃ e : EraDay, e.number = n := by
  -- The last day of an era and of a group would otherwise be taken for the first of a next.
  let century := min (n / 36524) 3
  let group := (n - century * 36524) / 1461
  let rest := n - century * 36524 - group * 1461
  let year := min (rest / 365) 3
  refine ⟨⟨century, group, year, rest - year * 365, by omega, by omega, by omega, by omega,
    by omega⟩, ?_⟩
  simp only [number]
  omega

variable (e : EraDay)

theorem yearOfEra_div_four : e.yearOfEra / 4 = e.century * 25 + e.group := by
  have := e.year_mem
  unfold yearOfEra
  omega

theorem yearOfEra_div_hundred : e.yearOfEra / 100 = e.century := by
  have := e.year_mem
  have := e.group_mem
  unfold yearOfEra
  omega

theorem yearOfEra_mem : 0 ≤ e.yearOfEra ∧ e.yearOfEra < 400 := by
  have := e.year_mem
  have := e.group_mem
  have := e.century_mem
  unfold yearOfEra
  omega

theorem number_eq : e.number =
    e.yearOfEra * 365 + e.yearOfEra / 4 - e.yearOfEra / 100 + e.day := by
  rw [yearOfEra_div_four, yearOfEra_div_hundred]
  unfold number yearOfEra
  omega

/-- The year of a day is found from its number. -/
theorem yearOfEra_eq : (e.number - e.number / 1460 + e.number / 36524 - e.number / 146096) / 365 =
    e.yearOfEra := by
  obtain ⟨c, g, y, d, hc, hg, hy, hd, hleap⟩ := e
  simp only [number, yearOfEra]
  have hrest : g * 1461 + y * 365 + d ≤ 36523 ∨ (c = 3 ∧ g * 1461 + y * 365 + d = 36524) := by
    omega
  -- The last day of an era counts both as the first of a fifth century and as the last day.
  have hcenturies : (c * 36524 + g * 1461 + y * 365 + d) / 36524 -
      (c * 36524 + g * 1461 + y * 365 + d) / 146096 = c := by
    obtain hrest | ⟨rfl, hrest⟩ := hrest
    · have hcentury : (c * 36524 + g * 1461 + y * 365 + d) / 36524 = c := by omega
      have hend : (c * 36524 + g * 1461 + y * 365 + d) / 146096 = 0 := by omega
      omega
    · omega
  have hgroups : (c * 36524 + g * 1461 + y * 365 + d) / 1460 =
      c * 25 + g + (c * 24 + g + y * 365 + d) / 1460 := by
    omega
  omega

end EraDay

section

variable {year dayOfYear : Int} (hday : 0 ≤ dayOfYear ∧ dayOfYear ≤ 365)

include hday

/-- What the months are found from, counted from March on. -/
theorem shifted_mem : 0 ≤ (5 * dayOfYear + 2) / 153 ∧ (5 * dayOfYear + 2) / 153 ≤ 11 := by omega

theorem toDays_ofMarch : (ofMarch year dayOfYear).toDays = year / 400 * 146097 +
    (year % 400 * 365 + year % 400 / 4 - year % 400 / 100 + dayOfYear) - 719468 := by
  have hmonth := shifted_mem hday
  unfold ofMarch toDays
  simp only
  have hdays : ((dayOfYear - (153 * ((5 * dayOfYear + 2) / 153) + 2) / 5 + 1).toNat : Int) =
      dayOfYear - (153 * ((5 * dayOfYear + 2) / 153) + 2) / 5 + 1 := by
    omega
  rw [hdays]
  generalize (5 * dayOfYear + 2) / 153 = shifted at hmonth
  split
  · have hback : (((shifted + 3).toNat : Int) + 9) % 12 = shifted := by omega
    rw [if_neg (by omega), if_neg (by omega), hback, Int.add_zero]
    omega
  · have hback : (((shifted - 9).toNat : Int) + 9) % 12 = shifted := by omega
    rw [if_pos (by omega), if_pos (by omega), hback, Int.add_sub_cancel]
    omega

/-- A day after the first of March is one of the calendar, if it is not the 29th of February of a
year without one. -/
theorem day_ofMarch (hleap : dayOfYear = 365 → isLeapYear (year + 1) = true) :
    1 ≤ (ofMarch year dayOfYear).month ∧ (ofMarch year dayOfYear).month ≤ 12 ∧
      1 ≤ (ofMarch year dayOfYear).day ∧ (ofMarch year dayOfYear).day ≤
        monthLength (ofMarch year dayOfYear).year (ofMarch year dayOfYear).month := by
  have hmonth := shifted_mem hday
  have hbounds : 153 * ((5 * dayOfYear + 2) / 153) ≤ 5 * dayOfYear + 2 ∧
      5 * dayOfYear + 2 < 153 * ((5 * dayOfYear + 2) / 153) + 153 := by
    omega
  unfold ofMarch
  simp only
  generalize (5 * dayOfYear + 2) / 153 = shifted at hmonth hbounds
  obtain rfl | hearly : shifted = 11 ∨ shifted ≤ 10 := by omega
  · -- February ends the year, and is the only month whose length depends on the year.
    cases hyear : isLeapYear (year + 1) with
    | true =>
      simp [monthLength, hyear]
      omega
    | false =>
      have hnot : dayOfYear ≠ 365 := fun h => by simp [hleap h] at hyear
      simp [monthLength, hyear]
      omega
  · have hcases : shifted = 0 ∨ shifted = 1 ∨ shifted = 2 ∨ shifted = 3 ∨ shifted = 4 ∨
        shifted = 5 ∨ shifted = 6 ∨ shifted = 7 ∨ shifted = 8 ∨ shifted = 9 ∨ shifted = 10 := by
      omega
    rcases hcases with rfl | rfl | rfl | rfl | rfl | rfl | rfl | rfl | rfl | rfl | rfl
    all_goals
      simp [monthLength]
      omega

end

/-! ## Days and their numbers -/

variable {n : Int} {e : EraDay}

theorem ofDays_eq (he : e.number = (n + 719468) % 146097) :
    ofDays n = ofMarch (e.yearOfEra + (n + 719468) / 146097 * 400) e.day := by
  have hday : e.number - (365 * e.yearOfEra + e.yearOfEra / 4 - e.yearOfEra / 100) = e.day := by
    rw [e.number_eq]
    omega
  unfold ofDays
  simp only
  rw [← he, e.yearOfEra_eq, hday]
  rfl

theorem exists_ofDays (n : Int) : ∃ e : EraDay, e.number = (n + 719468) % 146097 :=
  EraDay.exists_number (Int.emod_nonneg _ (by decide)) (Int.emod_lt_of_pos _ (by decide))

/-- A day is counted back to the number that it was found from. -/
theorem toDays_ofDays (n : Int) : (ofDays n).toDays = n := by
  obtain ⟨e, he⟩ := exists_ofDays n
  obtain ⟨hlow, hhigh⟩ := e.yearOfEra_mem
  have hera : (e.yearOfEra + (n + 719468) / 146097 * 400) / 400 = (n + 719468) / 146097 := by omega
  have hyear : (e.yearOfEra + (n + 719468) / 146097 * 400) % 400 = e.yearOfEra := by omega
  rw [ofDays_eq he, toDays_ofMarch e.day_mem, hera, hyear, ← e.number_eq, he]
  omega

/-- Whatever number it was found from, a day is one of the calendar as far as that reaches. -/
theorem isValid_ofDays (hlow : -262143 ≤ (ofDays n).year) (hhigh : (ofDays n).year ≤ 262142) :
    (ofDays n).isValid = true := by
  obtain ⟨e, he⟩ := exists_ofDays n
  have hleap : e.day = 365 → isLeapYear (e.yearOfEra + (n + 719468) / 146097 * 400 + 1) = true := by
    intro hlast
    obtain ⟨hyear, hgroup⟩ := e.leap hlast
    have := e.group_mem
    have := e.century_mem
    unfold isLeapYear EraDay.yearOfEra
    simp only [Bool.and_eq_true, Bool.or_eq_true, decide_eq_true_eq]
    omega
  have hday := day_ofMarch e.day_mem hleap
  rw [← ofDays_eq he] at hday
  simp only [isValid, Bool.and_eq_true, decide_eq_true_eq]
  exact ⟨⟨⟨⟨⟨hlow, hhigh⟩, hday.1⟩, hday.2.1⟩, hday.2.2.1⟩, hday.2.2.2⟩

end CalendarDay

namespace Moment

/-! ## Digits -/

theorem isDigits_padded (width n : Nat) : Decimal.IsDigits (padded width n) := by
  refine ⟨by simp [padded, Nat.toDigits_ne_nil], fun c hc => ?_⟩
  obtain hzero | hdigit := List.mem_append.1 hc
  · rw [(List.mem_replicate.1 hzero).2]
    rfl
  · exact (Decimal.isDigits_toDigits n).isDigit c hdigit

theorem natOfDigits_padded (width n : Nat) : Decimal.natOfDigits (padded width n) = n := by
  rw [Decimal.natOfDigits_eq, padded, Nat.ofDigitChars_append, Nat.ofDigitChars_replicate_zero,
    Nat.mul_zero, Nat.ofDigitChars_ten_toDigits]

/-- A number that fits is written with as many digits as it was to have. -/
theorem length_padded {width n : Nat} (hwidth : 0 < width) (hn : n < Nat.pow 10 width) :
    (padded width n).length = width := by
  have hle : (Nat.toDigits 10 n).length ≤ width :=
    (Nat.length_toDigits_le_iff (by decide) hwidth).2 hn
  rw [padded, List.length_append, List.length_replicate]
  omega

variable {width n : Nat} {ds rest : List Char}

/-- Digits are read as their number, up to the width or the first character that is none. -/
theorem readNumber_append (hds : Decimal.IsDigits ds) (hwidth : ds.length ≤ width)
    (hrest : ds.length < width → ∀ c ∈ rest.head?, c.isDigit = false) :
    readNumber width (ds ++ rest) = some (Decimal.natOfDigits ds, rest) := by
  have hend : ∀ c ∈ (rest.take (width - ds.length)).head?, c.isDigit = false := by
    intro c hc
    by_cases hlt : ds.length < width
    · refine hrest hlt c ?_
      rwa [List.head?_take, if_neg (by omega)] at hc
    · rw [Nat.sub_eq_zero_of_le (Nat.not_lt.1 hlt)] at hc
      cases hc
  have hspan : Decimal.spanDigits ((ds ++ rest).take width) =
      (ds, rest.take (width - ds.length)) := by
    rw [List.take_append, List.take_of_length_le hwidth]
    exact Json.spanDigits_append hds.isDigit hend
  have hne : ds.isEmpty = false := by simpa using hds.ne_nil
  simp [readNumber, hspan, hne]

theorem not_isBlank_of_isDigit {c : Char} (h : c.isDigit = true) : Text.isBlank c = false := by
  have hrange : 48 ≤ c.toNat ∧ c.toNat ≤ 57 := by
    simpa [Char.isDigit, UInt32.le_iff_toNat_le] using h
  simp [Text.isBlank]
  omega

theorem dropBlanks_cons {c : Char} (hc : Text.isBlank c = false) :
    dropBlanks (c :: rest) = c :: rest :=
  List.dropWhile_cons_of_neg (by simp [hc])

theorem dropBlanks_digits (hds : Decimal.IsDigits ds) : dropBlanks (ds ++ rest) = ds ++ rest := by
  obtain ⟨d, more, rfl⟩ := List.exists_cons_of_ne_nil hds.ne_nil
  exact dropBlanks_cons (not_isBlank_of_isDigit (hds.isDigit d List.mem_cons_self))

theorem readPart_two (rest : List Char) (hn : n < 100) :
    readPart 2 (padded 2 n ++ rest) = some (n, rest) := by
  have hlength : (padded 2 n).length = 2 := length_padded (by decide) hn
  rw [readPart, dropBlanks_digits (isDigits_padded 2 n),
    readNumber_append (isDigits_padded 2 n) (Nat.le_of_eq hlength) (fun h => by omega),
    natOfDigits_padded]

theorem readMark_cons {mark : Char} (hmark : Text.isBlank mark = false) :
    readMark mark (mark :: rest) = some rest := by
  simp [readMark, dropBlanks_cons hmark]

/-! ## The parts of a moment -/

/-- A year is read with its sign, up to the mark that follows it. -/
theorem readYear_append (y : Int) (rest : List Char) (hrest : ∀ c ∈ rest.head?, c.isDigit = false) :
    readYear (yearChars y ++ rest) = some (y, rest) := by
  have hsigned : ∀ k : Nat, readNumber (padded 4 k ++ rest).length (padded 4 k ++ rest) =
      some (k, rest) := by
    intro k
    rw [readNumber_append (isDigits_padded 4 k) (by simp) (fun _ => hrest), natOfDigits_padded]
  unfold yearChars
  split
  · next hplain =>
    simp only [Bool.and_eq_true, decide_eq_true_eq] at hplain
    have hlt : y.toNat < 10 ^ 4 := by omega
    have hread := readNumber_append (isDigits_padded 4 y.toNat)
      (Nat.le_of_eq (length_padded (by decide) hlt)) (fun _ => hrest)
    obtain ⟨d, more, hds⟩ := List.exists_cons_of_ne_nil (isDigits_padded 4 y.toNat).ne_nil
    have hdigit := (isDigits_padded 4 y.toNat).isDigit d (hds ▸ List.mem_cons_self)
    unfold readYear
    rw [dropBlanks_digits (isDigits_padded 4 y.toNat)]
    split
    · next heq =>
      rw [hds] at heq
      cases heq
      cases hdigit
    · next heq =>
      rw [hds] at heq
      cases heq
      cases hdigit
    · rw [hread, natOfDigits_padded]
      simp [Int.toNat_of_nonneg hplain.1]
  · next hfar =>
    simp only [Bool.and_eq_true, decide_eq_true_eq] at hfar
    unfold readYear
    by_cases hneg : y < 0
    · rw [if_pos hneg, List.cons_append, dropBlanks_cons (by decide)]
      simp only [hsigned, Option.map_some]
      congr 2
      omega
    · rw [if_neg hneg, List.cons_append, dropBlanks_cons (by decide)]
      simp only [hsigned, Option.map_some]
      congr 2
      omega

/-- The day of a date is read, if it is one of the calendar. -/
theorem readDay_append {d : CalendarDay} (hd : d.isValid = true) :
    readDay (yearChars d.year ++ '-' :: (padded 2 d.month ++ '-' :: (padded 2 d.day ++ rest))) =
      some (d, rest) := by
  have hvalid := hd
  simp only [CalendarDay.isValid, Bool.and_eq_true, decide_eq_true_eq] at hvalid
  obtain ⟨⟨⟨⟨-, -⟩, hmonths⟩, -⟩, hdays⟩ := hvalid
  have hlength : CalendarDay.monthLength d.year d.month ≤ 31 := by
    unfold CalendarDay.monthLength
    repeat' split
    all_goals omega
  have hyear := readYear_append d.year ('-' :: (padded 2 d.month ++ '-' :: (padded 2 d.day ++ rest)))
    (by simp)
  have hmonth : d.month < 100 := by omega
  have hday : d.day < 100 := by omega
  unfold readDay
  simp [hyear, readMark_cons, readPart_two _ hmonth, readPart_two _ hday, hd, Text.isBlank]

/-- A fraction is read in nanoseconds, however many groups of digits it was written with. -/
theorem readFraction_append {nanos : Nat} (hnanos : nanos < 1000000000)
    (hrest : ∀ c ∈ rest.head?, c.isDigit = false) (hpoint : rest.head? ≠ some '.') :
    readFraction (fractionChars nanos ++ rest) = some (nanos, rest) := by
  have hread : ∀ groups k, 0 < groups → groups ≤ 3 → k < 10 ^ (3 * groups) →
      readFraction ('.' :: padded (3 * groups) k ++ rest) =
        some (k * 10 ^ (9 - 3 * groups), rest) := by
    intro groups k hpos hle hk
    have hds := isDigits_padded (3 * groups) k
    have hlength := length_padded (by omega) hk
    have hne : (padded (3 * groups) k).isEmpty = false := by simpa using hds.ne_nil
    have hkept : (padded (3 * groups) k).take 9 = padded (3 * groups) k :=
      List.take_of_length_le (by omega)
    simp only [List.cons_append, readFraction, Json.spanDigits_append hds.isDigit hrest, hne,
      Bool.false_eq_true, if_false, hkept, natOfDigits_padded, hlength]
    rfl
  unfold fractionChars
  split
  · next hzero =>
    subst hzero
    unfold readFraction
    split
    · next heq =>
      rw [List.nil_append] at heq
      rw [heq] at hpoint
      exact absurd rfl hpoint
    · rfl
  split
  · rw [hread 1 (nanos / 1000000) (by decide) (by decide) (by omega)]
    congr 2
    omega
  split
  · rw [hread 2 (nanos / 1000) (by decide) (by decide) (by omega)]
    congr 2
    omega
  · rw [hread 3 nanos (by decide) (by decide) (by omega)]
    simp

/-- A time of day is read from its hours, minutes and seconds. -/
theorem readTime_append {time nanos : Nat} (rest : List Char) (htime : time < 86400)
    (hnanos : nanos < 1000000000) (hrest : ∀ c ∈ rest.head?, c.isDigit = false)
    (hpoint : rest.head? ≠ some '.') :
    readTime (padded 2 (time / 3600) ++ ':' :: (padded 2 (time / 60 % 60) ++ ':' ::
      (padded 2 (time % 60) ++ (fractionChars nanos ++ rest)))) = some (time, nanos, rest) := by
  have hhour : time / 3600 < 100 := by omega
  have hminute : time / 60 % 60 < 100 := by omega
  have hsecond : time % 60 < 100 := by omega
  have hcolon : Text.isBlank ':' = false := by decide
  unfold readTime
  simp only [readPart_two _ hhour, readPart_two _ hminute, readPart_two _ hsecond,
    readMark_cons hcolon, readFraction_append hnanos hrest hpoint, Option.bind_eq_bind,
    Option.bind_some]
  have hclock : (decide (time / 3600 < 24) && decide (time / 60 % 60 < 60) &&
      decide (time % 60 ≤ 60)) = true := by
    simp only [Bool.and_eq_true, decide_eq_true_eq]
    omega
  rw [if_pos hclock]
  congr 2
  · omega
  · congr 1
    omega

/-! ## Moments -/

/-- Whether a moment is in a year that is written, and in no leap second. -/
structure IsPlain (m : Moment) : Prop where
  low : -262143 ≤ (CalendarDay.ofDays (m.seconds / 86400)).year
  high : (CalendarDay.ofDays (m.seconds / 86400)).year ≤ 262142
  nanos : m.nanos < 1000000000

instance (m : Moment) : Decidable m.IsPlain :=
  decidable_of_iff
    (-262143 ≤ (CalendarDay.ofDays (m.seconds / 86400)).year ∧
      (CalendarDay.ofDays (m.seconds / 86400)).year ≤ 262142 ∧ m.nanos < 1000000000)
    ⟨fun h => ⟨h.1, h.2.1, h.2.2⟩, fun h => ⟨h.low, h.high, h.nanos⟩⟩

/-- A moment is read from its text. -/
theorem read?_render {m : Moment} (h : m.IsPlain) : read? m.render = some m := by
  have hday := CalendarDay.isValid_ofDays h.low h.high
  have hdays := CalendarDay.toDays_ofDays (m.seconds / 86400)
  have htime : (m.seconds % 86400).toNat < 86400 := by omega
  have hnanos : m.nanos % 1000000000 = m.nanos := Nat.mod_eq_of_lt h.nanos
  have hleap : m.nanos / 1000000000 = 0 := Nat.div_eq_of_lt h.nanos
  unfold read? render
  simp only [hnanos, hleap, Nat.add_zero, String.toList_ofList, List.append_assoc, List.cons_append,
    readDay_append hday, Option.bind_eq_bind, Option.bind_some]
  simp only [readTime_append ['Z'] htime h.nanos (by simp) (by simp), decide_true,
    Bool.true_or, if_true, Option.bind_some, hdays]
  have hzone : readZone (dropBlanks ['Z']) = some (0, []) := by decide
  have hend : (dropBlanks []).isEmpty = true := by decide
  simp only [hzone, hend, Option.bind_some, if_true]
  have hseconds : m.seconds / 86400 * 86400 + ((m.seconds % 86400).toNat : Int) - 0 = m.seconds := by
    omega
  rw [hseconds]

end Moment

end TaskSwarm
