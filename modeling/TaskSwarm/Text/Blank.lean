/-
Blank characters: the ones that carry the Unicode property White_Space.

Lines read from a peer are trimmed of these before anything else looks at
them, and a name made only of them counts as missing. The set is larger than
the four characters JSON skips between tokens, so the two are kept apart:
`isBlank` here, and the token separators beside the JSON scanner.
-/
set_option autoImplicit false

namespace TaskSwarm.Text

/-- The characters with the Unicode property White_Space. -/
def isBlank (c : Char) : Bool :=
  let n := c.toNat
  (0x09 ≤ n && n ≤ 0x0D) || n == 0x20 || n == 0x85 || n == 0xA0 || n == 0x1680
    || (0x2000 ≤ n && n ≤ 0x200A) || n == 0x2028 || n == 0x2029 || n == 0x202F
    || n == 0x205F || n == 0x3000

/-- `cs` without the blanks at its end. -/
def dropBlanksRight (cs : List Char) : List Char :=
  (cs.reverse.dropWhile isBlank).reverse

/-- `cs` without the blanks at either end. -/
def trim (cs : List Char) : List Char :=
  (dropBlanksRight cs).dropWhile isBlank

/-- Whether a text holds nothing but blanks. -/
def isBlankText (s : String) : Bool := s.toList.all isBlank

/-! ## Laws -/

theorem dropBlanksRight_eq_self {cs : List Char}
    (h : ∀ c, cs.getLast? = some c → isBlank c = false) : dropBlanksRight cs = cs := by
  unfold dropBlanksRight
  cases hr : cs.reverse with
  | nil => simp [List.reverse_eq_nil_iff.mp hr]
  | cons c r =>
    have hlast : cs.getLast? = some c := by
      rw [List.getLast?_eq_head?_reverse, hr]; rfl
    rw [List.dropWhile_cons_of_neg (by simp [h c hlast]), ← hr, List.reverse_reverse]

/-- Nothing is trimmed from a text that neither starts nor ends in a blank. -/
theorem trim_eq_self {cs : List Char} (hhead : ∀ c, cs.head? = some c → isBlank c = false)
    (hlast : ∀ c, cs.getLast? = some c → isBlank c = false) : trim cs = cs := by
  rw [trim, dropBlanksRight_eq_self hlast]
  cases cs with
  | nil => rfl
  | cons c r => exact List.dropWhile_cons_of_neg (by simp [hhead c rfl])

end TaskSwarm.Text
