/-
Numbers as they are written in a JSON text, and the values they stand for.

A numeral without point and exponent is a whole number if it fits one of 64
bits, and a double otherwise; `-0` is a double as well, because no whole number
keeps its sign.

A double takes its value in two steps. The digits are gathered into a word of
64 bits for as long as they fit; a digit that does not fit ends its group, and
only its place is remembered. That word is then scaled by a power of ten in
double arithmetic. The result may differ in the last place from the double
nearest to the numeral, which is the agreed reading among peers.
-/
import TaskSwarm.Decimal.Layout
import TaskSwarm.Document.Basic

set_option autoImplicit false

namespace TaskSwarm

/-- A number as it is written. -/
structure Numeral where
  negative : Bool
  /-- The digits before the point. -/
  whole : List Char
  /-- The digits after the point, if there is one. -/
  fraction : Option (List Char)
  /-- Whether the exponent is negative, and its digits. -/
  exponent : Option (Bool × List Char)
  deriving DecidableEq, Repr

namespace Numeral

/-- One more than the largest whole number. -/
def wordBound : Nat := 0x10000000000000000

/-- The value of a digit. -/
def digitValue (c : Char) : Nat := c.toNat - 48

/-- Gathers digits while they fit a word: the word, and the digits that were left. -/
def gather (word : Nat) : List Char → Nat × List Char
  | [] => (word, [])
  | c :: cs =>
    let next := word * 10 + digitValue c
    if next < wordBound then gather next cs else (word, c :: cs)

/-- Divides by powers of ten until the exponent is one that a double can hold. -/
def lift (f : Float) (exponent : Int) : Nat → Float × Int
  | 0 => (f, exponent)
  | fuel + 1 =>
    if exponent < -308 ∧ f != 0.0 then lift (f / Float.ofScientific 1 false 308) (exponent + 308) fuel
    else (f, exponent)

/-- A word scaled by a power of ten. -/
def scale (word : Nat) (exponent : Int) : Except Malformed Float :=
  let f := Float.ofNat word
  if exponent > 308 then
    if f == 0.0 then .ok f else .error .numberOutOfRange
  else if exponent ≥ 0 then
    let g := f * Float.ofScientific 1 false exponent.toNat
    if Decimal.isFinite g then .ok g else .error .numberOutOfRange
  else
    let (g, e) := lift f exponent 8
    if g == 0.0 then .ok g else .ok (g / Float.ofScientific 1 false (-e).toNat)

/-- The largest exponent that is computed with. -/
def exponentBound : Nat := 0x80000000

/-- The double of a numeral, sign aside. -/
def magnitude (n : Numeral) : Except Malformed Float :=
  let (word, left) := gather 0 n.whole
  let before : Int := left.length
  let (word, after) := match n.fraction with
    | none => (word, 0)
    | some ds =>
      let (word', left') := gather word ds
      (word', (ds.length : Int) - left'.length)
  let place := before - after
  match n.exponent with
  | none => scale word place
  | some (negative, ds) =>
    let e := Decimal.natOfDigits ds
    if e < exponentBound then scale word (if negative then place - e else place + e)
    else if word ≠ 0 ∧ !negative then .error .numberOutOfRange
    else .ok 0.0

/-- Whether a numeral may stand for a whole number. -/
def isWhole (n : Numeral) : Bool := n.fraction.isNone && n.exponent.isNone

/-- The number that a numeral stands for. -/
def value (n : Numeral) : Except Malformed Number :=
  let (word, left) := gather 0 n.whole
  if n.isWhole ∧ left.isEmpty ∧ !n.negative then .ok (.int word)
  else if n.isWhole ∧ left.isEmpty ∧ 0 < word ∧ word ≤ 0x8000000000000000 then .ok (.int (-(word : Int)))
  else n.magnitude.map fun f => .real (if n.negative then -f else f)

end Numeral

end TaskSwarm
