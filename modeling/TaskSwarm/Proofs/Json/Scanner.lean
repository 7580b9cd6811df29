/-
The scanner takes in what the printer writes.

`tree` is what the scanner makes of the text of a value: strings, names and the
shape of lists as they were, and each number as its numeral is read. Doubles are
read only to within the last place, so a tree need not be that of the value that
was written; nothing else can differ. `scan_chars` is the whole claim: the tree,
and then exactly the text that followed.
-/
import TaskSwarm.Json.Printer
import TaskSwarm.Json.Scanner
import TaskSwarm.Proofs.Decimal.Layout

set_option autoImplicit false

namespace TaskSwarm.Json

open Decimal (IsDigits IsWhole IsFraction IsExponent IsNumeral)

/-! ## The text after a value -/

/-- What may follow a value that is written: nothing, a comma or a closing bracket. -/
def Stops (rest : List Char) : Prop := ∀ c ∈ rest.head?, c = ',' ∨ c = ']' ∨ c = '\x7d'

theorem stops_nil : Stops [] := nofun

theorem stops_comma (rest : List Char) : Stops (',' :: rest) := by simp [Stops]

theorem stops_bracket (rest : List Char) : Stops (']' :: rest) := by simp [Stops]

theorem stops_brace (rest : List Char) : Stops ('\x7d' :: rest) := by simp [Stops]

theorem skipSpace_cons {c : Char} {rest : List Char} (hc : isSeparator c = false) :
    skipSpace (c :: rest) = c :: rest := by
  unfold skipSpace
  rw [List.dropWhile_cons_of_neg (by simp [hc])]

/-- A digit is none of the other characters that a value may start with. -/
theorem ne_of_isDigit {d : Char} (hd : d.isDigit = true) {c : Char} (hc : c.isDigit = false) : d ≠ c := by
  rintro rfl
  rw [hd] at hc
  cases hc

theorem isSeparator_of_isDigit {d : Char} (hd : d.isDigit = true) : isSeparator d = false := by
  have hne : ∀ c : Char, c.isDigit = false → d ≠ c := fun _ => ne_of_isDigit hd
  simp [isSeparator, hne ' ' rfl, hne '\n' rfl, hne '\t' rfl, hne '\r' rfl]

/-! ## Strings -/

theorem broken_plain (s : String) : (Literal.plain s).broken = none := rfl

theorem hexValue?_hexDigits {n : Nat} (hn : n < 0x20) :
    Text.hexValue? (Text.hexDigits 4 n) = some n := by
  have hcases : ∀ i : Fin 0x20, Text.hexValue? (Text.hexDigits 4 i.val) = some i.val := by decide
  exact hcases ⟨n, hn⟩

theorem scanHex_hexDigits {n : Nat} (hn : n < 0x20) (rest : List Char) :
    scanHex (Text.hexDigits 4 n ++ rest) = .ok (n, rest) := by
  have hvalue := hexValue?_hexDigits hn
  obtain ⟨a, b, c, d, hdigits⟩ : ∃ a b c d, Text.hexDigits 4 n = [a, b, c, d] := ⟨_, _, _, _, rfl⟩
  rw [hdigits] at hvalue ⊢
  simp only [List.cons_append, List.nil_append, scanHex, hvalue]

/-- An escape is read as the character it stands for. -/
theorem scanString_escapeChar (acc : String) (fuel : Nat) (c : Char) (rest : List Char) :
    scanString acc none (fuel + 1) (escapeChar c ++ rest) = scanString (acc.push c) none fuel rest := by
  unfold escapeChar
  split
  case h_8 hquote hslash hb hf hn hr ht =>
    split
    · next hlow =>
      -- One of the characters that have no short form.
      have hleading : isLeading c.toNat = false := by
        unfold isLeading
        rw [Bool.and_eq_false_iff, decide_eq_false_iff_not]
        exact Or.inl (by omega)
      have htrailing : isTrailing c.toNat = false := by
        unfold isTrailing
        rw [Bool.and_eq_false_iff, decide_eq_false_iff_not]
        exact Or.inl (by omega)
      rw [List.append_assoc]
      simp only [List.cons_append, List.nil_append, scanString, scanHex_hexDigits hlow, hleading,
        htrailing, Bool.false_eq_true, if_false, Char.ofNat_toNat]
    · next hlow =>
      -- Any other character is read as it stands.
      rw [List.singleton_append, scanString, if_neg hlow]
      · exact hquote
      · exact fun h _ => hslash h
      · exact fun _ h _ => hslash h
      · exact fun _ _ h _ => hslash h
  all_goals simp [scanString, shortEscape?]

/-- A string is read up to its closing quotation mark. -/
theorem scanString_escaped (cs : List Char) (acc : String) {fuel : Nat} (hfuel : cs.length < fuel)
    (rest : List Char) :
    scanString acc none fuel (cs.flatMap escapeChar ++ '"' :: rest) =
      (.plain (acc ++ String.ofList cs), rest) := by
  induction cs generalizing acc fuel with
  | nil =>
    obtain ⟨fuel, rfl⟩ := Nat.exists_eq_succ_of_ne_zero (Nat.ne_of_gt hfuel)
    simp [scanString, Literal.plain]
  | cons c cs ih =>
    obtain ⟨fuel, rfl⟩ := Nat.exists_eq_succ_of_ne_zero (Nat.ne_zero_of_lt hfuel)
    have hlt : cs.length < fuel := by simpa using hfuel
    rw [List.flatMap_cons, List.append_assoc, scanString_escapeChar, ih _ hlt]
    congr 2
    apply String.toList_injective
    simp

theorem length_le_flatMap_escapeChar (cs : List Char) :
    cs.length ≤ (cs.flatMap escapeChar).length := by
  induction cs with
  | nil => exact Nat.le_refl _
  | cons c cs ih =>
    have hpos : 0 < (escapeChar c).length := by
      unfold escapeChar
      split <;> (try split) <;> simp
    rw [List.flatMap_cons, List.length_append, List.length_cons]
    omega

/-- The text of a string is read as that string. -/
theorem scanString_stringChars (s : String) (rest : List Char) :
    scanString "" none ((s.toList.flatMap escapeChar ++ '"' :: rest).length + 1)
      (s.toList.flatMap escapeChar ++ '"' :: rest) = (.plain s, rest) := by
  have hlength := length_le_flatMap_escapeChar s.toList
  rw [scanString_escaped, String.ofList_toList, String.empty_append]
  rw [List.length_append]
  omega

/-! ## Numbers -/

theorem spanDigits_append {ds rest : List Char} (hds : ∀ c ∈ ds, c.isDigit = true)
    (hrest : ∀ c ∈ rest.head?, c.isDigit = false) :
    Decimal.spanDigits (ds ++ rest) = (ds, rest) := by
  unfold Decimal.spanDigits
  have hnone : rest.takeWhile Char.isDigit = [] ∧ rest.dropWhile Char.isDigit = rest := by
    cases rest with
    | nil => exact ⟨rfl, rfl⟩
    | cons c rest =>
      have hc : c.isDigit = false := hrest c rfl
      simp [hc]
  rw [List.takeWhile_append_of_pos hds, List.dropWhile_append_of_pos hds, hnone.1, hnone.2,
    List.append_nil]

theorem Stops.not_isDigit {rest : List Char} (h : Stops rest) :
    ∀ c ∈ rest.head?, c.isDigit = false := by
  intro c hc
  rcases h c hc with rfl | rfl | rfl <;> rfl

/-- After the digits of a number there is no exponent unless one is written. -/
theorem scanExponent_stops {n : Numeral} {rest : List Char} (h : Stops rest) :
    scanExponent n rest = (numeralTree n, rest) := by
  cases rest with
  | nil => rfl
  | cons c rest =>
    have hc : ¬ (c = 'e' ∨ c = 'E') := by
      rcases h c rfl with rfl | rfl | rfl <;> decide
    simp only [scanExponent, hc, if_false]

theorem scanExponent_append {exponent : List Char} (he : IsExponent exponent) (n : Numeral) :
    ∃ m, ∀ rest, Stops rest → scanExponent n (exponent ++ rest) = (numeralTree m, rest) := by
  cases he with
  | none => exact ⟨n, fun rest h => scanExponent_stops h⟩
  | @digits sign ds hsign hds =>
    refine ⟨{ n with exponent := some (decide (sign = ['-']), ds) }, fun rest h => ?_⟩
    have hspan := spanDigits_append hds.isDigit h.not_isDigit
    have hdrop : Decimal.dropSign (sign ++ (ds ++ rest)) = (decide (sign = ['-']), ds ++ rest) := by
      simp only [List.mem_cons, List.not_mem_nil, or_false] at hsign
      rcases hsign with rfl | rfl | rfl
      · -- Without a sign the digits come at once, and no digit is a sign.
        obtain ⟨d, ds, rfl⟩ := List.exists_cons_of_ne_nil hds.ne_nil
        have hd := hds.isDigit d List.mem_cons_self
        have hminus : d ≠ '-' := by rintro rfl; exact absurd hd (by decide)
        have hplus : d ≠ '+' := by rintro rfl; exact absurd hd (by decide)
        simp [Decimal.dropSign, hminus, hplus]
      · rfl
      · rfl
    have hne : ds.isEmpty = false := by simpa using hds.ne_nil
    simp only [List.cons_append, List.append_assoc, scanExponent, true_or, if_true, hdrop, hspan, hne,
      Bool.false_eq_true, if_false]

/-- What follows the digits before the point is no digit. -/
theorem not_isDigit_parts {fraction exponent rest : List Char} (hf : IsFraction fraction)
    (he : IsExponent exponent) (h : Stops rest) :
    ∀ c ∈ (fraction ++ exponent ++ rest).head?, c.isDigit = false := by
  cases hf with
  | digits _ => simp
  | none =>
    cases he with
    | digits _ _ => simp
    | none => exact h.not_isDigit

theorem not_isDigit_exponent {exponent rest : List Char} (he : IsExponent exponent) (h : Stops rest) :
    ∀ c ∈ (exponent ++ rest).head?, c.isDigit = false :=
  not_isDigit_parts .none he h

/-- A numeral is read to its end, whatever number it stands for. -/
theorem scanNumber_append {body : List Char} (hbody : IsNumeral body) (negative : Bool) :
    ∃ n, ∀ rest, Stops rest → scanNumber negative (body ++ rest) = (numeralTree n, rest) := by
  obtain ⟨hw, hf, he⟩ := hbody
  next whole fraction exponent =>
  have hwhole : ∀ after, (∀ c ∈ after.head?, c.isDigit = false) →
      Decimal.spanDigits (whole ++ after) = (whole, after) :=
    fun after => spanDigits_append hw.isDigit
  obtain ⟨d, ds, rfl⟩ := List.exists_cons_of_ne_nil hw.ne_nil
  -- The digits are not refused for a needless zero; the matches below are decided by this.
  have hzero : ∀ d' ds', d :: ds ≠ '0' :: d' :: ds' := by
    intro d' ds' heq
    refine hw.head_ne_zero ?_ ?_ <;> rw [heq] <;> simp
  cases hf with
  | none =>
    obtain ⟨m, hm⟩ := scanExponent_append he ⟨negative, d :: ds, none, none⟩
    refine ⟨m, fun rest h => ?_⟩
    rw [List.append_nil, List.append_assoc]
    unfold scanNumber
    rw [hwhole _ (not_isDigit_exponent he h)]
    simp only
    split
    · -- An exponent does not start with a point.
      next hpoint =>
      exfalso
      cases he with
      | none =>
        rw [List.nil_append] at hpoint
        have hstop := h '.' (by rw [hpoint]; rfl)
        revert hstop
        decide
      | digits => simp at hpoint
    · exact hm rest h
  | @digits fs hfs =>
    obtain ⟨m, hm⟩ := scanExponent_append he ⟨negative, d :: ds, some fs, none⟩
    refine ⟨m, fun rest h => ?_⟩
    have hne : fs.isEmpty = false := by simpa using hfs.ne_nil
    have hspan := spanDigits_append hfs.isDigit (not_isDigit_exponent he h)
    rw [List.append_assoc, List.append_assoc]
    unfold scanNumber
    rw [hwhole _ (by simp)]
    simp only [List.cons_append, hspan, hne, Bool.false_eq_true, if_false]
    exact hm rest h

/-- A number is written as a numeral, with or without a minus, or as null if it is not finite. -/
theorem numberChars_eq (n : Number) : numberChars n = ['n', 'u', 'l', 'l'] ∨
    ∃ body, IsNumeral body ∧ (numberChars n = body ∨ numberChars n = '-' :: body) := by
  cases n with
  | int n =>
    cases n with
    | ofNat n => exact Or.inr ⟨_, Decimal.isNumeral_toDigits n, Or.inl rfl⟩
    | negSucc n => exact Or.inr ⟨_, Decimal.isNumeral_toDigits (n + 1), Or.inr rfl⟩
  | real x =>
    by_cases hfinite : Decimal.isFinite x = true
    · obtain ⟨body, hbody, htext⟩ := Decimal.render_eq Decimal.Layout.message x
      refine Or.inr ⟨body, hbody, ?_⟩
      simpa only [numberChars, hfinite, if_true] using htext
    · simp [numberChars, hfinite]

/-- The tree of a number that is written. -/
def numberTree (n : Number) : Document := (scan (numberChars n)).1

theorem halts_numeralTree (n : Numeral) : halts (numeralTree n) = false := by
  unfold numeralTree
  split <;> rfl

/-- A character that starts a number starts nothing else. -/
theorem scanValue_digit {d : Char} (hd : d.isDigit = true) (fuel : Nat) (cs : List Char) :
    scanValue (fuel + 1) (d :: cs) = scanNumber false (d :: cs) := by
  have hne : ∀ c : Char, c.isDigit = false → d ≠ c := fun _ => ne_of_isDigit hd
  simp [scanValue, skipSpace_cons (isSeparator_of_isDigit hd), hne, hd]

/-- A number is read to its end, and nothing about it keeps the scanner from going on. -/
theorem exists_scanValue_number (n : Number) : ∃ t, halts t = false ∧ ∀ fuel rest, Stops rest →
    scanValue (fuel + 1) (numberChars n ++ rest) = (t, rest) := by
  rcases numberChars_eq n with hnull | ⟨body, hbody, hbare | hsigned⟩
  · refine ⟨.null, rfl, fun fuel rest _ => ?_⟩
    simp [hnull, scanValue, scanName, skipSpace_cons, isSeparator]
  · obtain ⟨m, hm⟩ := scanNumber_append hbody false
    obtain ⟨d, ds, rfl, hd⟩ := hbody.exists_cons
    refine ⟨_, halts_numeralTree m, fun fuel rest h => ?_⟩
    rw [hbare, ← hm rest h]
    exact scanValue_digit hd fuel (ds ++ rest)
  · obtain ⟨m, hm⟩ := scanNumber_append hbody true
    refine ⟨_, halts_numeralTree m, fun fuel rest h => ?_⟩
    rw [hsigned, ← hm rest h]
    simp [scanValue, skipSpace_cons, isSeparator]

/-- A number is read as its tree, whatever follows it. -/
theorem scanValue_number (n : Number) (fuel : Nat) {rest : List Char} (h : Stops rest) :
    scanValue (fuel + 1) (numberChars n ++ rest) = (numberTree n, rest) := by
  obtain ⟨t, -, ht⟩ := exists_scanValue_number n
  have htree : numberTree n = t := by
    have hnil := ht (numberChars n).length [] stops_nil
    rw [List.append_nil] at hnil
    unfold numberTree scan
    rw [hnil]
  rw [htree]
  exact ht fuel rest h

theorem halts_numberTree (n : Number) : halts (numberTree n) = false := by
  obtain ⟨t, hhalts, ht⟩ := exists_scanValue_number n
  have hnil := ht (numberChars n).length [] stops_nil
  rw [List.append_nil] at hnil
  unfold numberTree scan
  rw [hnil]
  exact hhalts

/-! ## Values -/

mutual

/-- What the scanner makes of the text of a value. -/
def tree : Json → Document
  | .null => .null
  | .bool b => .bool b
  | .num n => numberTree n
  | .str s => .str (.plain s)
  | .arr items => .arr (itemTrees items) .closed
  | .obj members => .obj (memberTrees members) .closed

/-- The trees of items. -/
def itemTrees : List Json → List Document
  | [] => []
  | x :: xs => x.tree :: itemTrees xs

/-- The trees of members. -/
def memberTrees : List (String × Json) → List (Literal × Document)
  | [] => []
  | (k, v) :: ms => (.plain k, v.tree) :: memberTrees ms

end

theorem halts_tree (j : Json) : halts j.tree = false := by
  cases j with
  | num n => exact halts_numberTree n
  | _ => rfl

/-- The text of a value starts with a character that is neither blank nor closes a list. -/
theorem exists_chars_cons (j : Json) :
    ∃ c cs, j.chars = c :: cs ∧ isSeparator c = false ∧ c ≠ ']' := by
  cases j with
  | null => exact ⟨'n', _, rfl, rfl, by decide⟩
  | bool b => cases b <;> exact ⟨_, _, rfl, rfl, by decide⟩
  | str s => exact ⟨'"', _, rfl, rfl, by decide⟩
  | arr items => exact ⟨'[', _, rfl, rfl, by decide⟩
  | obj members => exact ⟨'\x7b', _, rfl, rfl, by decide⟩
  | num n =>
    rw [chars]
    rcases numberChars_eq n with hnull | ⟨body, hbody, hbare | hsigned⟩
    · exact ⟨'n', _, hnull, rfl, by decide⟩
    · obtain ⟨d, ds, rfl, hd⟩ := hbody.exists_cons
      exact ⟨d, ds, hbare, isSeparator_of_isDigit hd, ne_of_isDigit hd rfl⟩
    · exact ⟨'-', _, hsigned, rfl, by decide⟩

theorem exists_itemsChars_cons (x : Json) (xs : List Json) :
    ∃ c cs, itemsChars (x :: xs) = c :: cs ∧ isSeparator c = false ∧ c ≠ ']' := by
  obtain ⟨c, cs, hcs, hspace, hclose⟩ := exists_chars_cons x
  cases xs with
  | nil => exact ⟨c, cs, by rw [itemsChars, hcs], hspace, hclose⟩
  | cons y ys => exact ⟨c, _, by rw [itemsChars, hcs, List.cons_append], hspace, hclose⟩

theorem exists_membersChars_cons (m : String × Json) (ms : List (String × Json)) :
    ∃ cs, membersChars (m :: ms) = '"' :: cs := by
  obtain ⟨k, v⟩ := m
  cases ms with
  | nil => exact ⟨_, rfl⟩
  | cons m' ms => exact ⟨_, rfl⟩

/-- Items are read up to their bracket, once each of them can be. -/
theorem scanItems_append {fuel : Nat} {x : Json} {xs : List Json} {rest : List Char}
    (acc : List Document)
    (hvalue : ∀ rest, Stops rest → scanValue fuel (x.chars ++ rest) = (x.tree, rest))
    (hmore : ∀ acc, xs ≠ [] → scanItems fuel acc (itemsChars xs ++ ']' :: rest) =
      (.arr (acc.reverse ++ itemTrees xs) .closed, rest)) :
    scanItems (fuel + 1) acc (itemsChars (x :: xs) ++ ']' :: rest) =
      (.arr (acc.reverse ++ itemTrees (x :: xs)) .closed, rest) := by
  cases xs with
  | nil =>
    rw [itemsChars]
    simp [scanItems, hvalue _ (stops_bracket rest), halts_tree, itemTrees, skipSpace_cons, isSeparator]
  | cons y ys =>
    -- After a comma the scanner looks for what may start a value, and a bracket does not.
    obtain ⟨c, cs, hcs, hspace, hclose⟩ := exists_itemsChars_cons y ys
    have hcomma : isSeparator ',' = false := rfl
    have hmore := hmore (x.tree :: acc) (List.cons_ne_nil _ _)
    have hvalue := hvalue (',' :: (itemsChars (y :: ys) ++ ']' :: rest)) (stops_comma _)
    rw [itemsChars, List.append_assoc, List.cons_append]
    rw [hcs, List.cons_append] at hmore hvalue ⊢
    simp [scanItems, hvalue, hmore, halts_tree, itemTrees, hclose, skipSpace_cons hspace,
      skipSpace_cons hcomma]

/-- Members are read up to their brace, once the value of each of them can be. -/
theorem scanMembers_append {fuel : Nat} {k : String} {v : Json} {ms : List (String × Json)}
    {rest : List Char} (acc : List (Literal × Document))
    (hvalue : ∀ rest, Stops rest → scanValue fuel (v.chars ++ rest) = (v.tree, rest))
    (hmore : ∀ acc, ms ≠ [] → scanMembers fuel acc (membersChars ms ++ '\x7d' :: rest) =
      (.obj (acc.reverse ++ memberTrees ms) .closed, rest)) :
    scanMembers (fuel + 1) acc (membersChars ((k, v) :: ms) ++ '\x7d' :: rest) =
      (.obj (acc.reverse ++ memberTrees ((k, v) :: ms)) .closed, rest) := by
  cases ms with
  | nil =>
    have hkey := scanString_stringChars k (':' :: (v.chars ++ '\x7d' :: rest))
    -- The name is taken in as one, so its characters must not be looked at again.
    simp only [membersChars, stringChars, List.cons_append, List.append_assoc, List.nil_append]
    generalize k.toList.flatMap escapeChar ++ '"' :: ':' :: (v.chars ++ '\x7d' :: rest) = text at hkey ⊢
    simp [scanMembers, hkey, hvalue _ (stops_brace rest), halts_tree, memberTrees, broken_plain,
      skipSpace_cons, isSeparator]
  | cons m ms =>
    obtain ⟨cs, hcs⟩ := exists_membersChars_cons m ms
    have hmore := hmore ((.plain k, v.tree) :: acc) (List.cons_ne_nil _ _)
    have hvalue := hvalue (',' :: (membersChars (m :: ms) ++ '\x7d' :: rest)) (stops_comma _)
    have hkey := scanString_stringChars k
      (':' :: (v.chars ++ ',' :: (membersChars (m :: ms) ++ '\x7d' :: rest)))
    simp only [membersChars, stringChars, List.cons_append, List.append_assoc, List.nil_append]
    rw [hcs, List.cons_append] at hmore hvalue hkey ⊢
    generalize k.toList.flatMap escapeChar ++
      '"' :: ':' :: (v.chars ++ ',' :: '"' :: (cs ++ '\x7d' :: rest)) = text at hkey ⊢
    simp [scanMembers, hkey, hvalue, hmore, halts_tree, memberTrees, broken_plain, skipSpace_cons,
      isSeparator]

/-- What is read with enough fuel: each value takes one, and so does each item and each member. -/
structure Scans (fuel : Nat) : Prop where
  value : ∀ (j : Json) rest, j.chars.length < fuel → Stops rest →
    scanValue fuel (j.chars ++ rest) = (j.tree, rest)
  items : ∀ items acc rest, items ≠ [] → (itemsChars items).length + 1 < fuel →
    scanItems fuel acc (itemsChars items ++ ']' :: rest) =
      (.arr (acc.reverse ++ itemTrees items) .closed, rest)
  members : ∀ members acc rest, members ≠ [] → (membersChars members).length + 1 < fuel →
    scanMembers fuel acc (membersChars members ++ '\x7d' :: rest) =
      (.obj (acc.reverse ++ memberTrees members) .closed, rest)

/-- A value is read if its parts can be read with one fuel less. -/
theorem Scans.scanValue {fuel : Nat} (ih : Scans fuel) (j : Json) {rest : List Char}
    (hfuel : j.chars.length < fuel + 1) (h : Stops rest) :
    scanValue (fuel + 1) (j.chars ++ rest) = (j.tree, rest) := by
  cases j with
  | null => simp [chars, Json.scanValue, tree, scanName, skipSpace_cons, isSeparator]
  | bool b =>
    cases b <;> simp [chars, boolChars, Json.scanValue, tree, scanName, skipSpace_cons, isSeparator]
  | num n => exact scanValue_number n fuel h
  | str s =>
    have hstring := scanString_stringChars s rest
    simp only [chars, stringChars, List.cons_append, List.append_assoc, List.nil_append]
    generalize s.toList.flatMap escapeChar ++ '"' :: rest = text at hstring ⊢
    simp [Json.scanValue, hstring, tree, skipSpace_cons, isSeparator]
  | arr items =>
    cases items with
    | nil => simp [chars, itemsChars, Json.scanValue, tree, itemTrees, skipSpace_cons, isSeparator]
    | cons x xs =>
      have hlength : (itemsChars (x :: xs)).length + 1 < fuel := by
        simp only [chars, List.length_cons, List.length_append, List.length_nil] at hfuel
        omega
      have hitems := ih.items (x :: xs) [] rest (List.cons_ne_nil _ _) hlength
      obtain ⟨c, cs, hcs, hspace, hclose⟩ := exists_itemsChars_cons x xs
      have hopen : isSeparator '[' = false := rfl
      simp only [chars, List.cons_append, List.append_assoc, List.nil_append]
      rw [hcs, List.cons_append] at hitems ⊢
      simp [Json.scanValue, hitems, hclose, tree, skipSpace_cons hspace, skipSpace_cons hopen]
  | obj members =>
    cases members with
    | nil => simp [chars, membersChars, Json.scanValue, tree, memberTrees, skipSpace_cons, isSeparator]
    | cons m ms =>
      have hlength : (membersChars (m :: ms)).length + 1 < fuel := by
        simp only [chars, List.length_cons, List.length_append, List.length_nil] at hfuel
        omega
      have hmembers := ih.members (m :: ms) [] rest (List.cons_ne_nil _ _) hlength
      obtain ⟨cs, hcs⟩ := exists_membersChars_cons m ms
      simp only [chars, List.cons_append, List.append_assoc, List.nil_append]
      rw [hcs, List.cons_append] at hmembers ⊢
      simp [Json.scanValue, hmembers, tree, skipSpace_cons, isSeparator]

/-- Everything is read that there is fuel for. -/
theorem scans (fuel : Nat) : Scans fuel := by
  -- On the fuel, since values, items and members are read in terms of one another.
  induction fuel with
  | zero => exact ⟨fun _ _ h => by omega, fun _ _ _ _ h => by omega, fun _ _ _ _ h => by omega⟩
  | succ fuel ih =>
    refine ⟨fun j rest hfuel h => ih.scanValue j hfuel h, ?_, ?_⟩
    · intro items acc rest hne hfuel
      obtain ⟨x, xs, rfl⟩ := List.exists_cons_of_ne_nil hne
      have hlength : x.chars.length < fuel ∧ (xs ≠ [] → (itemsChars xs).length + 1 < fuel) := by
        cases xs with
        | nil =>
          rw [itemsChars] at hfuel
          exact ⟨by omega, fun h => absurd rfl h⟩
        | cons y ys =>
          rw [itemsChars, List.length_append, List.length_cons] at hfuel
          exact ⟨by omega, fun _ => by omega⟩
      refine scanItems_append acc (fun rest h => ih.value x rest hlength.1 h) ?_
      exact fun acc hxs => ih.items xs acc rest hxs (hlength.2 hxs)
    · intro members acc rest hne hfuel
      obtain ⟨⟨k, v⟩, ms, rfl⟩ := List.exists_cons_of_ne_nil hne
      have hlength : v.chars.length < fuel ∧ (ms ≠ [] → (membersChars ms).length + 1 < fuel) := by
        cases ms with
        | nil =>
          rw [membersChars, List.length_append, List.length_cons] at hfuel
          exact ⟨by omega, fun h => absurd rfl h⟩
        | cons m ms =>
          simp only [membersChars, List.length_append, List.length_cons] at hfuel
          exact ⟨by omega, fun _ => by omega⟩
      refine scanMembers_append acc (fun rest h => ih.value v rest hlength.1 h) ?_
      exact fun acc hms => ih.members ms acc rest hms (hlength.2 hms)

/-- The scanner takes in just what was written for a value. -/
theorem scan_chars (j : Json) : scan j.chars = (j.tree, []) := by
  have hvalue := (scans (j.chars.length + 1)).value j [] (Nat.lt_succ_self _) stops_nil
  rw [List.append_nil] at hvalue
  exact hvalue

end TaskSwarm.Json
