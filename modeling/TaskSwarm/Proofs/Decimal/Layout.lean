/-
The text of a double is a numeral.

A numeral is what a number looks like in a message: digits without a needless
zero in front, then perhaps a point with more digits, then perhaps an exponent.
`render_eq` says that every double is laid out as one, so a reader of messages
takes in just what was written for it. Which numeral it is does not matter here.
-/
import TaskSwarm.Decimal.Layout

set_option autoImplicit false

namespace TaskSwarm.Decimal

/-! ## Numerals -/

/-- One digit or more. -/
structure IsDigits (ds : List Char) : Prop where
  ne_nil : ds ≠ []
  isDigit : ∀ c ∈ ds, c.isDigit = true

/-- Digits without a needless zero in front. -/
structure IsWhole (ds : List Char) : Prop extends IsDigits ds where
  head_ne_zero : ds ≠ ['0'] → ds.head? ≠ some '0'

/-- Nothing, or a point with digits. -/
inductive IsFraction : List Char → Prop
  | none : IsFraction []
  | digits {ds : List Char} : IsDigits ds → IsFraction ('.' :: ds)

/-- Nothing, or an exponent with at most one sign. -/
inductive IsExponent : List Char → Prop
  | none : IsExponent []
  | digits {sign ds : List Char} : sign ∈ [[], ['+'], ['-']] → IsDigits ds →
      IsExponent ('e' :: (sign ++ ds))

/-- A number as messages have it, its sign aside. -/
inductive IsNumeral : List Char → Prop
  | parts {whole fraction exponent : List Char} : IsWhole whole → IsFraction fraction →
      IsExponent exponent → IsNumeral (whole ++ fraction ++ exponent)

theorem IsNumeral.exists_cons {body : List Char} (hbody : IsNumeral body) :
    ∃ d ds, body = d :: ds ∧ d.isDigit = true := by
  obtain ⟨hw, -, -⟩ := hbody
  next whole fraction exponent =>
  obtain ⟨d, ds, rfl⟩ := List.exists_cons_of_ne_nil hw.ne_nil
  exact ⟨d, ds ++ fraction ++ exponent, by simp, hw.isDigit d List.mem_cons_self⟩

/-! ## Digits of whole numbers -/

theorem isDigits_toDigits (n : Nat) : IsDigits (Nat.toDigits 10 n) :=
  ⟨Nat.toDigits_ne_nil, fun _ hc => Nat.isDigit_of_mem_toDigits (by decide) (by decide) hc⟩

theorem digitChar_ne_zero {d : Nat} (hpos : 0 < d) (hlt : d < 10) : d.digitChar ≠ '0' := by
  have hcases : ∀ d : Fin 10, 0 < d.val → d.val.digitChar ≠ '0' := by decide
  exact hcases ⟨d, hlt⟩ hpos

/-- The digits of a positive number start with one that is not zero. -/
theorem head?_toDigits_ne_zero {n : Nat} (hpos : 0 < n) : (Nat.toDigits 10 n).head? ≠ some '0' := by
  -- Dividing by ten drops the last digit and leaves the first.
  induction n using Nat.strongRecOn with
  | ind n ih =>
    by_cases hlt : n < 10
    · rw [Nat.toDigits_of_lt_base hlt, List.head?_cons]
      intro heq
      exact digitChar_ne_zero hpos hlt (Option.some.inj heq)
    · have hle : 10 ≤ n := Nat.le_of_not_lt hlt
      have hdiv : 0 < n / 10 := Nat.div_pos hle (by decide)
      have hhead := ih (n / 10) (Nat.div_lt_self hpos (by decide)) hdiv
      obtain ⟨d, rest, hds⟩ := List.exists_cons_of_ne_nil (Nat.toDigits_ne_nil (b := 10) (n := n / 10))
      rw [Nat.toDigits_of_base_le (by decide) hle, hds]
      rw [hds] at hhead
      exact hhead

theorem isWhole_toDigits (n : Nat) : IsWhole (Nat.toDigits 10 n) := by
  refine ⟨isDigits_toDigits n, fun hne => ?_⟩
  have hpos : 0 < n := by
    refine Nat.pos_of_ne_zero fun hzero => hne ?_
    rw [hzero, Nat.toDigits_zero]
  exact head?_toDigits_ne_zero hpos

/-- A whole number is a numeral without point and exponent. -/
theorem isNumeral_toDigits (n : Nat) : IsNumeral (Nat.toDigits 10 n) := by
  have h := IsNumeral.parts (isWhole_toDigits n) .none .none
  simpa using h

/-! ## Digits read back -/

theorem natOfDigits_eq (ds : List Char) : natOfDigits ds = Nat.ofDigitChars 10 ds 0 := by
  have hfold : ∀ start : Nat, ds.foldl (fun n c => n * 10 + (c.toNat - 48)) start =
      Nat.ofDigitChars 10 ds start := by
    induction ds with
    | nil => exact fun _ => rfl
    | cons d ds ih =>
      intro start
      rw [List.foldl_cons, Nat.ofDigitChars_cons, ih, Nat.mul_comm start 10]
      rfl
  exact hfold 0

theorem natOfDigits_toDigits (n : Nat) : natOfDigits (Nat.toDigits 10 n) = n := by
  rw [natOfDigits_eq, Nat.ofDigitChars_ten_toDigits]

/-! ## The shortest decimal -/

/-- No point of the interval of a positive double is zero. -/
theorem contains_zero {b : Binary} (hpos : 0 < b.mantissa) (e : Int) :
    b.interval.contains 0 e = false := by
  -- The interval of a positive double starts above zero, on either side of the point.
  have hlow : 0 < b.interval.low * Nat.pow 10 (-e).toNat := by
    refine Nat.mul_pos (Nat.mul_pos ?_ ?_) ?_
    · split <;> omega
    · exact Nat.pow_pos (by decide)
    · exact Nat.pow_pos (by decide)
  unfold Interval.contains
  split
  · simp only [Nat.zero_mul, Bool.and_eq_false_iff, decide_eq_false_iff_not]
    exact Or.inl (Nat.not_le_of_lt hlow)
  · simp only [Nat.zero_mul, Bool.and_eq_false_iff, decide_eq_false_iff_not]
    exact Or.inl (Nat.not_lt_zero _)

theorem onGrid_ne_zero {b : Binary} (hpos : 0 < b.mantissa) {e : Int} {d : Nat}
    (hd : b.interval.onGrid e = some d) : d ≠ 0 := by
  rintro rfl
  have hzero := contains_zero hpos e
  unfold Interval.onGrid at hd
  simp only at hd
  split at hd
  · next hbelow _ =>
    split at hd
    · rw [Option.some.inj hd, hzero] at hbelow
      cases hbelow
    · exact absurd (Option.some.inj hd) (Nat.succ_ne_zero _)
  · next hbelow _ =>
    rw [Option.some.inj hd, hzero] at hbelow
    cases hbelow
  · exact absurd (Option.some.inj hd) (Nat.succ_ne_zero _)
  · cases hd

theorem search_ne_zero {b : Binary} (hpos : 0 < b.mantissa) {lead : Int} {digits count : Nat}
    {d : Decimal} (hd : b.interval.search lead digits count = some d) : d.digits ≠ 0 := by
  induction count generalizing digits with
  | zero => cases hd
  | succ count ih =>
    simp only [Interval.search] at hd
    split at hd
    · next hgrid =>
      cases hd
      exact onGrid_ne_zero hpos hgrid
    · exact ih hd

theorem trimZeros_ne_zero {d : Decimal} (hd : d.digits ≠ 0) (fuel : Nat) :
    (trimZeros d fuel).digits ≠ 0 := by
  induction fuel generalizing d with
  | zero => exact hd
  | succ fuel ih =>
    simp only [trimZeros]
    split
    · refine ih ?_
      simp only
      omega
    · exact hd

/-- The shortest decimal has no digits but zero only for the double zero. -/
theorem shortest_exponent {x : Float} (hzero : (shortest x).digits = 0) :
    (shortest x).exponent = 0 := by
  unfold shortest at hzero ⊢
  simp only at hzero ⊢
  split
  · rfl
  · next hmantissa =>
    rw [if_neg hmantissa] at hzero
    split at hzero
    · next d hsearch =>
      have hne := search_ne_zero (Nat.pos_of_ne_zero hmantissa) hsearch
      exact absurd hzero (trimZeros_ne_zero hne 17)
    · rfl

/-! ## The layouts -/

theorem isDigits_zeros_append {ds : List Char} (hds : IsDigits ds) (n : Nat) :
    IsDigits (zeros n ++ ds) := by
  refine ⟨by simp [hds.ne_nil], fun c hc => ?_⟩
  rcases List.mem_append.1 hc with hc | hc
  · rw [List.eq_of_mem_replicate hc]
    rfl
  · exact hds.isDigit c hc

theorem IsWhole.append_zeros {ds : List Char} (hds : IsWhole ds) {n : Nat}
    (hn : ds = ['0'] → n = 0) : IsWhole (ds ++ zeros n) := by
  by_cases hzero : ds = ['0']
  · rw [hn hzero]
    simpa [zeros] using hds
  · refine ⟨⟨by simp [hds.ne_nil], fun c hc => ?_⟩, fun _ => ?_⟩
    · rcases List.mem_append.1 hc with hc | hc
      · exact hds.isDigit c hc
      · rw [List.eq_of_mem_replicate hc]
        rfl
    · obtain ⟨d, rest, rfl⟩ := List.exists_cons_of_ne_nil hds.ne_nil
      exact hds.head_ne_zero hzero

/-- A decimal written without an exponent is a numeral, if its zero is written as one digit. -/
theorem isNumeral_positional {ds : List Char} (hds : IsWhole ds) {e : Int}
    (he : ds = ['0'] → e ≤ 0) : IsNumeral (positional ds e) := by
  unfold positional
  split
  · -- Less than one: a zero, the point, and the digits after some zeros.
    have hwhole : IsWhole ['0'] := ⟨⟨by simp, by simp⟩, fun h => absurd rfl h⟩
    have hfraction := isDigits_zeros_append hds.toIsDigits ((-e).toNat - 1)
    have h := IsNumeral.parts hwhole (.digits hfraction) .none
    simpa using h
  · next hneg =>
    simp only
    split
    · -- A whole number: the digits, some zeros, and a zero after the point.
      have hwhole : IsWhole (ds ++ zeros (e.toNat + 1 - ds.length)) := by
        refine hds.append_zeros fun hzero => ?_
        have hle := he hzero
        rw [hzero, List.length_singleton]
        omega
      have hfraction : IsDigits ['0'] := ⟨by simp, by simp⟩
      have h := IsNumeral.parts hwhole (.digits hfraction) .none
      simpa using h
    · next hlength =>
      -- The point stands among the digits.
      have hne : ds ≠ ['0'] := by
        rintro rfl
        simp at hlength
      obtain ⟨d, rest, rfl⟩ := List.exists_cons_of_ne_nil hds.ne_nil
      have hwhole : IsWhole ((d :: rest).take (e.toNat + 1)) := by
        refine ⟨⟨by simp, fun c hc => hds.isDigit c (List.mem_of_mem_take hc)⟩, fun _ => ?_⟩
        simpa using hds.head_ne_zero hne
      have hfraction : IsDigits ((d :: rest).drop (e.toNat + 1)) := by
        refine ⟨?_, fun c hc => hds.isDigit c (List.mem_of_mem_drop hc)⟩
        rw [ne_eq, List.drop_eq_nil_iff]
        omega
      have h := IsNumeral.parts hwhole (.digits hfraction) .none
      simpa using h

/-- A decimal written with an exponent is a numeral. -/
theorem isNumeral_scientific {ds : List Char} (hds : IsWhole ds) (l : Layout) (e : Int) :
    IsNumeral (scientific l ds e) := by
  have hexponent : ∀ sign ∈ [[], ['+'], ['-']],
      IsExponent (['e'] ++ sign ++ Nat.toDigits 10 e.natAbs) := by
    intro sign hsign
    exact .digits hsign (isDigits_toDigits _)
  have hsign : (if e < 0 then ['-'] else if l.signed then ['+'] else []) ∈ [[], ['+'], ['-']] := by
    split
    · simp
    · split <;> simp
  have hone : ∀ d, d.isDigit = true → IsWhole [d] := fun d hd =>
    ⟨⟨by simp, by simpa using hd⟩, fun hne heq => hne (by simpa using heq)⟩
  unfold scientific
  match ds, hds with
  | [], hds => exact absurd rfl hds.ne_nil
  | [d], hds =>
    have h := IsNumeral.parts (hone d (hds.isDigit d (by simp))) .none (hexponent _ hsign)
    simpa using h
  | d :: d' :: rest, hds =>
    have hfraction : IsDigits (d' :: rest) := ⟨by simp, fun c hc => hds.isDigit c (by simp [hc])⟩
    have h := IsNumeral.parts (hone d (hds.isDigit d (by simp))) (.digits hfraction)
      (hexponent _ hsign)
    simpa using h

/-- A double is laid out as a numeral, with or without a minus. -/
theorem render_eq (l : Layout) (x : Float) : ∃ body, IsNumeral body ∧
    ((l.render x).toList = body ∨ (l.render x).toList = '-' :: body) := by
  let ds := Nat.toDigits 10 (shortest x).digits
  let e := (shortest x).exponent + (ds.length : Int) - 1
  have hds : IsWhole ds := isWhole_toDigits _
  have he : ds = ['0'] → e ≤ 0 := by
    -- Zero is written as one digit, with nothing to shift.
    intro hzero
    have hdigits : (shortest x).digits = 0 := by
      refine Nat.eq_zero_of_not_pos fun hpos => head?_toDigits_ne_zero hpos ?_
      show ds.head? = some '0'
      rw [hzero, List.head?_cons]
    have hexponent := shortest_exponent hdigits
    have hlength : ds.length = 1 := by rw [hzero, List.length_singleton]
    simp only [e]
    omega
  refine ⟨if l.lowest ≤ e ∧ e ≤ l.highest then positional ds e else scientific l ds e, ?_, ?_⟩
  · split
    · exact isNumeral_positional hds he
    · exact isNumeral_scientific hds l e
  · unfold Layout.render
    rw [String.toList_ofList]
    split
    · exact Or.inr rfl
    · exact Or.inl rfl

end TaskSwarm.Decimal
