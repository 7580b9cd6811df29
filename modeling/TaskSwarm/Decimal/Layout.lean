/-
How a double is laid out as text, and how a decimal is read back.

The digits come from `Decimal.shortest`. A `Layout` decides the rest: which
exponents are written out with zeros, and whether a positive exponent carries
its sign. Both layouts in use always write a point or an exponent, so that a
double never looks like a whole number.
-/
import TaskSwarm.Decimal.Shortest

set_option autoImplicit false

namespace TaskSwarm.Decimal

/-- The decisions that the digits leave open. -/
structure Layout where
  /-- The smallest exponent of the leading digit that is still written with zeros. -/
  lowest : Int
  /-- The largest exponent of the leading digit that is still written with zeros. -/
  highest : Int
  /-- Whether an exponent that is not negative starts with a plus sign. -/
  signed : Bool
  deriving DecidableEq, Repr

/-- Messages write exponents from -5 to 15 with zeros, and `1e+16` beyond. -/
def Layout.message : Layout := ⟨-5, 15, true⟩

/-- Configuration files write exponents from -5 to 15 with zeros, and `1e16` beyond. -/
def Layout.configuration : Layout := ⟨-5, 15, false⟩

/-- A finite number of zeros. -/
def zeros (n : Nat) : List Char := List.replicate n '0'

/-- Digits `ds` with the leading one at exponent `e`, written without an exponent. -/
def positional (ds : List Char) (e : Int) : List Char :=
  if e < 0 then
    ['0', '.'] ++ zeros ((-e).toNat - 1) ++ ds
  else
    let whole := e.toNat + 1
    if ds.length ≤ whole then ds ++ zeros (whole - ds.length) ++ ['.', '0']
    else ds.take whole ++ ['.'] ++ ds.drop whole

/-- Digits `ds` with the leading one at exponent `e`, written with an exponent. -/
def scientific (l : Layout) (ds : List Char) (e : Int) : List Char :=
  let mantissa := match ds with
    | [] => ['0']
    | [d] => [d]
    | d :: rest => d :: '.' :: rest
  let sign := if e < 0 then ['-'] else if l.signed then ['+'] else []
  mantissa ++ ['e'] ++ sign ++ Nat.toDigits 10 e.natAbs

/-- The text of a finite double. -/
def Layout.render (l : Layout) (x : Float) : String :=
  let d := shortest x
  let ds := Nat.toDigits 10 d.digits
  let e := d.exponent + (ds.length : Int) - 1
  let body := if l.lowest ≤ e ∧ e ≤ l.highest then positional ds e else scientific l ds e
  String.ofList (if x.toBits >>> 63 = 1 then '-' :: body else body)

/-- Whether a double is neither infinite nor outside the numbers. -/
def isFinite (x : Float) : Bool := ((x.toBits >>> 52) &&& 0x7FF) != 0x7FF

/-! ## Reading -/

/-- The value of a string of decimal digits. -/
def natOfDigits (ds : List Char) : Nat :=
  ds.foldl (fun n c => n * 10 + (c.toNat - 48)) 0

/-- The double nearest to `digits * 10 ^ exponent`. -/
def toFloat (d : Decimal) : Float :=
  if d.exponent < 0 then Float.ofScientific d.digits true d.exponent.natAbs
  else Float.ofScientific d.digits false d.exponent.natAbs

/-- The longest start of `cs` that holds only digits, and what follows it. -/
def spanDigits (cs : List Char) : List Char × List Char :=
  (cs.takeWhile Char.isDigit, cs.dropWhile Char.isDigit)

/-- A sign, if one stands in front: whether it is a minus, and the rest. -/
def dropSign : List Char → Bool × List Char
  | '-' :: cs => (true, cs)
  | '+' :: cs => (false, cs)
  | cs => (false, cs)

/-- The exponent part of a numeral, which has to end there. -/
def readExponent : List Char → Option Int
  | [] => some 0
  | c :: cs =>
    if c = 'e' ∨ c = 'E' then
      let (negative, digits) := dropSign cs
      if digits.isEmpty ∨ !digits.all Char.isDigit then none
      else
        let n : Int := natOfDigits digits
        some (if negative then -n else n)
    else none

/-- Exponents beyond this size decide a double's value by their sign alone. -/
def farExponent : Int := 100000

/-- The double nearest to a decimal numeral: digits with at most one point, then an exponent. -/
def readFloat? (text : String) : Option Float :=
  let (negative, cs) := dropSign text.toList
  let (whole, rest) := spanDigits cs
  let (fraction, rest) := match rest with
    | '.' :: more => spanDigits more
    | _ => ([], rest)
  if whole.isEmpty ∧ fraction.isEmpty then none
  else
    (readExponent rest).map fun e =>
      let digits := natOfDigits (whole ++ fraction)
      let exponent := max (-farExponent) (min farExponent e) - (fraction.length : Int)
      let magnitude :=
        if digits = 0 then 0.0
        else if exponent + ((whole ++ fraction).length : Int) < -400 then 0.0
        else if exponent > 400 then (1.0 / 0.0)
        else toFloat ⟨digits, exponent⟩
      if negative then -magnitude else magnitude

end TaskSwarm.Decimal
