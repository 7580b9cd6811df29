/-
Numbers and bytes in base sixteen.

Digits are written in lower case and read in either. A byte takes two digits.
-/
set_option autoImplicit false

namespace TaskSwarm.Text

/-! ## Digits -/

/-- The last digit of `n`. -/
def hexDigit (n : Nat) : Char :=
  if n % 16 < 10 then Char.ofNat (48 + n % 16) else Char.ofNat (87 + n % 16)

/-- The last `width` digits of `n`. -/
def hexDigits (width n : Nat) : List Char :=
  (List.range width).reverse.map fun place => hexDigit (n / Nat.pow 16 place)

/-- The value of a digit. -/
def hexDigitValue? (c : Char) : Option Nat :=
  if '0' ≤ c ∧ c ≤ '9' then some (c.toNat - 48)
  else if 'a' ≤ c ∧ c ≤ 'f' then some (c.toNat - 87)
  else if 'A' ≤ c ∧ c ≤ 'F' then some (c.toNat - 55)
  else none

/-- The number that digits stand for. -/
def hexValue? (digits : List Char) : Option Nat :=
  digits.foldlM (fun n d => (hexDigitValue? d).map (n * 16 + ·)) 0

/-! ## Bytes -/

/-- The bytes of pairs of digits, up to the first that is none. -/
def ofHexDigits : List Char → List UInt8
  | a :: b :: rest =>
    match hexValue? [a, b] with
    | some n => UInt8.ofNat n :: ofHexDigits rest
    | none => []
  | _ => []

/-- The bytes of a text in base sixteen. -/
def ofHex (text : String) : ByteArray := ⟨(ofHexDigits text.toList).toArray⟩

/-- The text of bytes in base sixteen. -/
def toHex (bytes : ByteArray) : String :=
  String.ofList (bytes.toList.flatMap fun b => hexDigits 2 b.toNat)

end TaskSwarm.Text
