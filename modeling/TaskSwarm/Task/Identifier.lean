/-
Names of peers, proposals and locks.

The id of a proposal names directories on disk, so only letters, digits, `-`
and `_` of ASCII may stand in it. Ids made here start with the time in
milliseconds, which makes later ones larger; the token of a lock has nothing in
it to guess from. Both are 32 digits in base sixteen.
-/
import TaskSwarm.SortedMap
import TaskSwarm.Text.Hex

set_option autoImplicit false

namespace TaskSwarm

/-- The name of a peer. -/
abbrev PeerId := String

namespace Identifier

open Text (hexDigits)

/-- The characters an id may hold. -/
def isIdChar (c : Char) : Bool :=
  ('a' ≤ c && c ≤ 'z') || ('A' ≤ c && c ≤ 'Z') || ('0' ≤ c && c ≤ '9') || c = '-' || c = '_'

/-- Whether a text may be the id of a proposal. -/
def isValid (id : String) : Bool := !id.isEmpty && id.toList.all isIdChar

/-- The id of a proposal: twelve digits of time, the digit 7, and nineteen more that grow with `serial`. -/
def ofTime (millis serial : Nat) : String :=
  String.ofList (hexDigits 12 millis ++ '7' :: hexDigits 3 (serial / 0x10000) ++
    '8' :: hexDigits 15 (serial * 0x100000000 + 0x9e3779b9))

/-- Spreads a number over a word, one word for each number. -/
def scatter (n : Nat) : Nat :=
  let a := (n * 0x9e3779b97f4a7c15 + 0xd1b54a32d192ed03) % 0x10000000000000000
  let b := ((a ^^^ (a >>> 30)) * 0xbf58476d1ce4e5b9) % 0x10000000000000000
  let c := ((b ^^^ (b >>> 27)) * 0x94d049bb133111eb) % 0x10000000000000000
  c ^^^ (c >>> 31)

/-- The token of a lock, another one for each `serial`. -/
def token (serial : Nat) : String :=
  String.ofList (hexDigits 16 (scatter serial) ++ hexDigits 16 (scatter (serial + 0x10000000000)))

end Identifier

end TaskSwarm
