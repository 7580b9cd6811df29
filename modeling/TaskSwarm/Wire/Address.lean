/-
Where a node listens.

An address is a host and a port. Hosts of four numbers are written with points,
hosts of eight numbers in base sixteen between brackets, where one run of zeros
may be left out. The written form leaves out the longest run, and the first of
several.
-/
import TaskSwarm.Decimal.Layout
import TaskSwarm.Document.Codec

set_option autoImplicit false

namespace TaskSwarm

/-- The four numbers of a host. -/
structure Octets where
  a : UInt8
  b : UInt8
  c : UInt8
  d : UInt8
  deriving DecidableEq, Repr

/-- A host and a port. -/
inductive SocketAddress
  | v4 (host : Octets) (port : UInt16)
  | v6 (host : Vector UInt16 8) (scope : UInt32) (port : UInt16)
  deriving DecidableEq, Repr

namespace SocketAddress

/-- The address of a node that was told none. -/
def default : SocketAddress := .v4 ⟨127, 0, 0, 1⟩ 7400

instance : Inhabited SocketAddress := ⟨default⟩

/-- The port of an address. -/
def port : SocketAddress → UInt16
  | v4 _ port => port
  | v6 _ _ port => port

/-- The same host with another port. -/
def withPort (port : UInt16) : SocketAddress → SocketAddress
  | v4 host _ => v4 host port
  | v6 host scope _ => v6 host scope port

/-! ## Writing -/

/-- Four numbers with points between them. -/
def octetChars (o : Octets) : List Char :=
  List.intercalate ['.'] ([o.a, o.b, o.c, o.d].map fun n => Nat.toDigits 10 n.toNat)

/-- Numbers in base sixteen with colons between them. -/
def groupChars (gs : List UInt16) : List Char :=
  List.intercalate [':'] (gs.map fun g => Nat.toDigits 16 g.toNat)

/-- The length of the run of zeros at the start. -/
def zeroRun (gs : List UInt16) : Nat := (gs.takeWhile (· = 0)).length

/-- The start and the length of the longest run of zeros, the first of several; `start` numbers lie before. -/
def longestRun (start : Nat) : List UInt16 → Nat × Nat
  | [] => (start, 0)
  | g :: gs =>
    let here := zeroRun (g :: gs)
    let later := longestRun (start + 1) gs
    if here < later.2 then later else (start, here)

/-- The upper byte of a number. -/
def high (n : UInt16) : UInt8 := UInt8.ofNat (n.toNat / 256)

/-- The lower byte of a number. -/
def low (n : UInt16) : UInt8 := UInt8.ofNat n.toNat

/-- Whether eight numbers only wrap four, and which. -/
def wrapped? : List UInt16 → Option Octets
  | [0, 0, 0, 0, 0, 0xFFFF, g, h] =>
    some ⟨high g, low g, high h, low h⟩
  | _ => none

/-- A host of eight numbers. -/
def hostChars (gs : List UInt16) : List Char :=
  match wrapped? gs with
  | some o => ':' :: ':' :: groupChars [0xFFFF] ++ ':' :: octetChars o
  | none =>
    let (start, length) := longestRun 0 gs
    if 1 < length then groupChars (gs.take start) ++ ':' :: ':' :: groupChars (gs.drop (start + length))
    else groupChars gs

/-- The text of an address. -/
def render : SocketAddress → String
  | v4 host port => String.ofList (octetChars host ++ ':' :: Nat.toDigits 10 port.toNat)
  | v6 host scope port =>
    let zone := if scope = 0 then [] else '%' :: Nat.toDigits 10 scope.toNat
    String.ofList ('[' :: hostChars host.toList ++ zone ++ ']' :: ':' :: Nat.toDigits 10 port.toNat)

/-! ## Reading -/

/-- The value of digits, if it is below `bound`. -/
def decimal? (bound : Nat) (ds : List Char) : Option Nat :=
  if ds.isEmpty || !ds.all Char.isDigit then none
  else
    let n := Decimal.natOfDigits ds
    if n < bound then some n else none

/-- One of the four numbers: at most three digits, and none that is an idle zero. -/
def octet? (ds : List Char) : Option UInt8 :=
  if 3 < ds.length || Scalar.hasIdleZero ds then none else (decimal? 256 ds).map UInt8.ofNat

/-- Four numbers with points between them. -/
def octets? (cs : List Char) : Option Octets :=
  match cs.splitOn '.' with
  | [a, b, c, d] => do return ⟨← octet? a, ← octet? b, ← octet? c, ← octet? d⟩
  | _ => none

/-- One of the eight numbers. -/
def group? (ds : List Char) : Option UInt16 :=
  if 4 < ds.length then none else (Scalar.natIn? 16 ds).map UInt16.ofNat

/-- The number that two bytes make. -/
def joined (high low : UInt8) : UInt16 := UInt16.ofNat (high.toNat * 256 + low.toNat)

/-- Numbers with colons between them; where `mixed` says so the last two may be written as four. -/
def groups? (mixed : Bool) : List (List Char) → Option (List UInt16)
  | [] => some []
  | [last] =>
    match group? last with
    | some g => some [g]
    | none =>
      if mixed then
        (octets? last).map fun o => [joined o.a o.b, joined o.c o.d]
      else none
  | ds :: rest => do return (← group? ds) :: (← groups? mixed rest)

/-- The numbers of a part of a host, which may have none. -/
def part? (mixed : Bool) (cs : List Char) : Option (List UInt16) :=
  if cs.isEmpty then some [] else groups? mixed (cs.splitOn ':')

/-- The parts of a host before and after two colons, if there are such. -/
def aroundGap? : List Char → Option (List Char × List Char)
  | ':' :: ':' :: rest => some ([], rest)
  | c :: rest => (aroundGap? rest).map fun (before, after) => (c :: before, after)
  | [] => none

/-- Eight numbers out of a list, if it has so many. -/
def eight? (gs : List UInt16) : Option (Vector UInt16 8) :=
  if h : gs.toArray.size = 8 then some ⟨gs.toArray, h⟩ else none

/-- A host of eight numbers. Two colons stand for at least one zero. -/
def host? (cs : List Char) : Option (Vector UInt16 8) :=
  match aroundGap? cs with
  | none => do eight? (← groups? true (cs.splitOn ':'))
  | some (before, after) => do
    let head ← part? false before
    let tail ← part? true after
    let given := head.length + tail.length
    if given ≤ 7 then eight? (head ++ List.replicate (8 - given) 0 ++ tail) else none

/-- What follows a percent sign after a host, if there is one. -/
def zone? (cs : List Char) : Option UInt32 :=
  match cs with
  | [] => some 0
  | '%' :: ds => (decimal? (0x100000000) ds).map UInt32.ofNat
  | _ => none

/-- The number of a port. -/
def port? (ds : List Char) : Option UInt16 := (decimal? (0x10000) ds).map UInt16.ofNat

/-- An address from its characters. -/
def ofChars? : List Char → Option SocketAddress
  | '[' :: cs =>
    let inside := cs.takeWhile (· ≠ ']')
    match cs.drop inside.length with
    | ']' :: ':' :: digits => do
      let host := inside.takeWhile (· ≠ '%')
      return .v6 (← host? host) (← zone? (inside.drop host.length)) (← port? digits)
    | _ => none
  | cs =>
    let host := cs.takeWhile (· ≠ ':')
    match cs.drop host.length with
    | ':' :: digits => do return .v4 (← octets? host) (← port? digits)
    | _ => none

/-- An address from its text. -/
def ofString? (s : String) : Option SocketAddress := ofChars? s.toList

/-- How addresses are written. -/
def codec : Codec SocketAddress where
  encode a := .str a.render
  decode s d := do
    let text ← (Codec.textAs "socket address").decode s d
    match ofString? text with
    | some a => return a
    | none => throw (.illFormed "invalid socket address syntax")

end SocketAddress

end TaskSwarm
