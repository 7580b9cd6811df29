/-
The shortest decimal of a double.

A finite double is a whole number times a power of two, and the reals that
round to it form an interval around it: half a unit to either side, a quarter
below a power of two, ends included when the mantissa is even. Its shortest
decimal is the one with the fewest digits in that interval; of two with as few
digits, the nearer to the double.

The search works on exact natural numbers. For each number of digits, from one
to seventeen, only the two neighbours of the double on that decimal grid can be
meant, because if any point of the grid lies in the interval, so does one of
them. Seventeen digits always suffice.
-/
set_option autoImplicit false

namespace TaskSwarm

/-- The number `digits * 10 ^ exponent`. -/
structure Decimal where
  digits : Nat
  exponent : Int
  deriving DecidableEq, Repr

namespace Decimal

/-! ## A double taken apart -/

/-- The number `mantissa * 2 ^ exponent`, as a positive finite double stores it. -/
structure Binary where
  mantissa : Nat
  exponent : Int
  /-- Whether the next smaller double is only half as far away as the next larger one. -/
  lowerIsNearer : Bool
  deriving DecidableEq, Repr

/-- The parts of a double given by its bits, sign aside. -/
def Binary.ofBits (bits : UInt64) : Binary :=
  let field := ((bits >>> 52) &&& 0x7FF).toNat
  let fraction := (bits &&& 0xFFFFFFFFFFFFF).toNat
  -- Subnormal numbers lack the leading bit and share the exponent of the smallest normal ones.
  if field = 0 then ⟨fraction, -1074, false⟩
  else ⟨fraction + 0x10000000000000, (field : Int) - 1075, fraction = 0 && 1 < field⟩

/-- A double with the interval of reals that round to it, all over one denominator. -/
structure Interval where
  low : Nat
  value : Nat
  high : Nat
  denominator : Nat
  /-- Whether the two ends round to the double as well. -/
  closed : Bool
  deriving DecidableEq, Repr

/-- The interval of `b`, in quarters of its last place. -/
def Binary.interval (b : Binary) : Interval :=
  let quarter := b.exponent - 2
  let scale := Nat.pow 2 quarter.toNat
  { low := (4 * b.mantissa - (if b.lowerIsNearer then 1 else 2)) * scale
    value := 4 * b.mantissa * scale
    high := (4 * b.mantissa + 2) * scale
    denominator := Nat.pow 2 (-quarter).toNat
    closed := b.mantissa % 2 = 0 }

/-! ## The search -/

/-- Whether `10 ^ e` is at most `value / denominator`. -/
def Interval.reaches (i : Interval) (e : Int) : Bool :=
  Nat.pow 10 e.toNat * i.denominator ≤ i.value * Nat.pow 10 (-e).toNat

/-- The exponent of the leading digit, from an estimate that is off by at most one. -/
def Interval.leading (i : Interval) : Int :=
  -- 30103 / 100000 is a little more than the decimal logarithm of two.
  let estimate := Int.fdiv (((i.value.log2 : Int) - i.denominator.log2) * 30103) 100000
  if i.reaches (estimate + 1) then estimate + 1
  else if i.reaches estimate then estimate
  else estimate - 1

/-- Whether `digits * 10 ^ e` lies in the interval. -/
def Interval.contains (i : Interval) (digits : Nat) (e : Int) : Bool :=
  let point := digits * Nat.pow 10 e.toNat * i.denominator
  let shift := Nat.pow 10 (-e).toNat
  if i.closed then i.low * shift ≤ point && point ≤ i.high * shift
  else i.low * shift < point && point < i.high * shift

/-- The neighbour of the double on the grid of multiples of `10 ^ e` that rounds to it, if any. -/
def Interval.onGrid (i : Interval) (e : Int) : Option Nat :=
  let step := Nat.pow 10 e.toNat * i.denominator
  let value := i.value * Nat.pow 10 (-e).toNat
  let below := value / step
  let above := below + 1
  match i.contains below e, i.contains above e with
  | true, true =>
    let down := value - below * step
    let up := above * step - value
    if down < up || (down = up && below % 2 = 0) then some below else some above
  | true, false => some below
  | false, true => some above
  | false, false => none

/-- The first grid with a hit, trying `count` more digits before giving up. -/
def Interval.search (i : Interval) (lead : Int) (digits : Nat) : Nat → Option Decimal
  | 0 => none
  | count + 1 =>
    let e := lead - (digits : Int) + 1
    match i.onGrid e with
    | some d => some ⟨d, e⟩
    | none => i.search lead (digits + 1) count

/-- `d` without trailing zeros among its digits. -/
def trimZeros (d : Decimal) : Nat → Decimal
  | 0 => d
  | fuel + 1 =>
    if d.digits ≠ 0 ∧ d.digits % 10 = 0 then trimZeros ⟨d.digits / 10, d.exponent + 1⟩ fuel
    else d

/-- The shortest decimal that rounds to the finite double `x`, sign aside. -/
def shortest (x : Float) : Decimal :=
  let b := Binary.ofBits x.toBits
  if b.mantissa = 0 then ⟨0, 0⟩
  else
    let i := b.interval
    match i.search i.leading 1 17 with
    | some d => trimZeros d 17
    | none => ⟨0, 0⟩

end Decimal

end TaskSwarm
