/-
What a bare word of a configuration file may stand for.

Such a file does not say of which kind a word is; the setting that takes it
does. Whole numbers may be written in base two, eight or sixteen, and a number
with zeros in front is no number at all.
-/
import TaskSwarm.Decimal.Layout
import TaskSwarm.Text.Hex

set_option autoImplicit false

namespace TaskSwarm.Scalar

/-- The value of a word of at least one digit in the given base. -/
def natIn? (base : Nat) : List Char → Option Nat
  | [] => none
  | cs => cs.foldl (fun n c => do
      let n ← n
      let d ← Text.hexDigitValue? c
      if d < base then some (n * base + d) else none) (some 0)

/-- A word that names its base, without a sign. -/
def basedNat? : List Char → Option Nat
  | '0' :: 'x' :: cs => natIn? 16 cs
  | '0' :: 'o' :: cs => natIn? 8 cs
  | '0' :: 'b' :: cs => natIn? 2 cs
  | _ => none

/-- A word of digits that starts with a zero it does not need. -/
def hasIdleZero (cs : List Char) : Bool :=
  match cs with
  | '0' :: c :: rest => (c :: rest).all Char.isDigit
  | _ => false

/-- A number without a sign. -/
def nat? (cs : List Char) : Option Nat :=
  (basedNat? cs).or (if hasIdleZero cs then none else natIn? 10 cs)

/-- A whole number that is not negative. -/
def readNat? (text : String) : Option Nat :=
  match text.toList with
  | '+' :: cs => nat? cs
  | cs => nat? cs

/-- A whole number. -/
def readInt? (text : String) : Option Int :=
  match text.toList with
  | '-' :: cs => (nat? cs).map fun n => -(n : Int)
  | '+' :: cs => (nat? cs).map fun n => (n : Int)
  | cs => (nat? cs).map fun n => (n : Int)

/-- A double; infinities and the value outside the numbers have names of their own. -/
def readFloat? (text : String) : Option Float :=
  let unsigned := match text.toList with
    | '+' :: cs => cs
    | cs => cs
  let word := String.ofList unsigned
  if word = ".inf" ∨ word = ".Inf" ∨ word = ".INF" then some (1.0 / 0.0)
  else if text = "-.inf" ∨ text = "-.Inf" ∨ text = "-.INF" then some (-(1.0 / 0.0))
  else if text = ".nan" ∨ text = ".NaN" ∨ text = ".NAN" then some (0.0 / 0.0)
  else
    match text.toList, unsigned with
    | '+' :: _, '+' :: _ | '+' :: _, '-' :: _ => none
    | _, _ => (Decimal.readFloat? word).filter Decimal.isFinite

end TaskSwarm.Scalar
