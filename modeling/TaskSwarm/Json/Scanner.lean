/-
From text to tree.

`scan` reads one JSON value and leaves the rest of the text. It never fails:
where the text stops making sense, the tree says so, and who reads the tree
finds out if it looks there. A fault that cannot be stepped over ends the list
it stands in.

Each function hands the rest of the text on. The recursion is bounded by the
number of characters, since every call takes at least one.
-/
import TaskSwarm.Json.Numeral
import TaskSwarm.Text.Hex

set_option autoImplicit false

namespace TaskSwarm.Json

/-! ## Between tokens -/

/-- The characters that may stand between tokens. -/
def isSeparator (c : Char) : Bool := c = ' ' || c = '\n' || c = '\t' || c = '\r'

/-- The text from its next token on. -/
def skipSpace (cs : List Char) : List Char := cs.dropWhile isSeparator

/-! ## Strings -/

/-- The four digits of an escape, and the text after them. -/
def scanHex : List Char → Except Malformed (Nat × List Char)
  | a :: b :: c :: d :: rest =>
    match Text.hexValue? [a, b, c, d] with
    | some n => .ok (n, rest)
    | none => .error .invalidEscape
  -- Four bytes are looked for, not four characters; with fewer left, the text has ended.
  | cs => if 4 ≤ (String.ofList cs).utf8ByteSize then .error .invalidEscape else .error .endOfString

/-- Whether a code unit is the first half of a pair. -/
def isLeading (n : Nat) : Bool := 0xD800 ≤ n && n ≤ 0xDBFF

/-- Whether a code unit is the second half of a pair. -/
def isTrailing (n : Nat) : Bool := 0xDC00 ≤ n && n ≤ 0xDFFF

/-- The character of a pair of code units. -/
def combine (high low : Nat) : Char :=
  Char.ofNat (0x10000 + (high - 0xD800) * 1024 + (low - 0xDC00))

/-- What follows the first half of a pair: the second half and the text after it, or what is wrong. -/
def scanTrailing : List Char → Except Malformed (Nat × List Char)
  | [] | ['\\'] => .error .endOfString
  | '\\' :: 'u' :: rest =>
    match scanHex rest with
    | .error e => .error e
    | .ok (n, rest) => if isTrailing n then .ok (n, rest) else .error .loneSurrogate
  | _ => .error .truncatedSurrogate

/-- The escapes of one letter. -/
def shortEscape? : Char → Option Char
  | '"' => some '"'
  | '\\' => some '\\'
  | '/' => some '/'
  | 'b' => some '\x08'
  | 'f' => some '\x0c'
  | 'n' => some '\n'
  | 'r' => some '\r'
  | 't' => some '\t'
  | _ => none

/-- Reads a string after its opening quotation mark; `acc` is what was read of it. -/
def scanString (acc : String) (unpaired : Option Malformed) :
    Nat → List Char → Literal × List Char
  | 0, _ | _, [] => (⟨acc, unpaired, some .endOfString⟩, [])
  | _, '"' :: rest => (⟨acc, unpaired, none⟩, rest)
  | _, ['\\'] => (⟨acc, unpaired, some .endOfString⟩, [])
  | fuel + 1, '\\' :: 'u' :: rest =>
    match scanHex rest with
    | .error e => (⟨acc, unpaired, some e⟩, [])
    | .ok (n, rest) =>
      if isLeading n then
        match scanTrailing rest with
        | .ok (m, rest) => scanString (acc.push (combine n m)) unpaired fuel rest
        | .error e => scanString acc (unpaired.or (some e)) fuel rest
      else if isTrailing n then scanString acc (unpaired.or (some .loneSurrogate)) fuel rest
      else scanString (acc.push (Char.ofNat n)) unpaired fuel rest
  | fuel + 1, '\\' :: c :: rest =>
    match shortEscape? c with
    | some d => scanString (acc.push d) unpaired fuel rest
    | none => (⟨acc, unpaired, some .invalidEscape⟩, [])
  | fuel + 1, c :: rest =>
    if c.toNat < 0x20 then (⟨acc, unpaired, some .controlCharacter⟩, [])
    else scanString (acc.push c) unpaired fuel rest

/-! ## Numbers and names -/

/-- A number that cannot be read, `read` being the fault for who wants it. -/
def badNumber (read : Malformed) : Document × List Char :=
  (.garbled read (some .invalidNumber), [])

/-- The tree of a numeral. -/
def numeralTree (n : Numeral) : Document :=
  match n.value with
  | .ok v => .num v
  | .error e => .garbled e none

/-- The fault of a missing digit, before the text `cs`. -/
def noDigit (cs : List Char) : Malformed :=
  if cs.isEmpty then .endOfValue else .invalidNumber

/-- Reads the exponent of a number, if it has one. -/
def scanExponent (n : Numeral) (cs : List Char) : Document × List Char :=
  match cs with
  | c :: rest =>
    if c = 'e' ∨ c = 'E' then
      let (negative, rest) := Decimal.dropSign rest
      let (digits, rest) := Decimal.spanDigits rest
      if digits.isEmpty then badNumber (noDigit rest)
      else (numeralTree { n with exponent := some (negative, digits) }, rest)
    else (numeralTree n, cs)
  | [] => (numeralTree n, [])

/-- Reads a number after its sign. -/
def scanNumber (negative : Bool) (cs : List Char) : Document × List Char :=
  let (whole, rest) := Decimal.spanDigits cs
  match whole with
  | [] => badNumber (noDigit rest)
  | '0' :: _ :: _ => badNumber .invalidNumber
  | _ =>
    let n : Numeral := ⟨negative, whole, none, none⟩
    match rest with
    | '.' :: rest =>
      let (fraction, rest) := Decimal.spanDigits rest
      if fraction.isEmpty then badNumber (noDigit rest)
      else scanExponent { n with fraction := some fraction } rest
    | _ => scanExponent n rest

/-- Reads the rest of one of the three names. -/
def scanName (tree : Document) : List Char → List Char → Document × List Char
  | [], cs => (tree, cs)
  | _ :: _, [] => (.garbled .endOfValue (some .endOfValue), [])
  | w :: ws, c :: cs =>
    if w = c then scanName tree ws cs
    else (.garbled .expectedIdent (some .expectedIdent), [])

/-! ## Values -/

/-- Whether nothing can be read after a tree. -/
def halts : Document → Bool
  | .str l => l.broken.isSome
  | .arr _ closing | .obj _ closing => closing ≠ .closed
  | .garbled _ skipped => skipped.isSome
  | .missing _ => true
  | _ => false

mutual

/-- Reads one value. -/
def scanValue : Nat → List Char → Document × List Char
  | 0, _ => (.missing .endOfValue, [])
  | fuel + 1, cs =>
    match skipSpace cs with
    | [] => (.missing .endOfValue, [])
    | '"' :: rest =>
      let (l, rest) := scanString "" none (rest.length + 1) rest
      (.str l, rest)
    | '[' :: rest =>
      match skipSpace rest with
      | [] => (.arr [] .ended, [])
      | ']' :: rest => (.arr [] .closed, rest)
      | rest => scanItems fuel [] rest
    | '\x7b' :: rest =>
      match skipSpace rest with
      | [] => (.obj [] .ended, [])
      | '\x7d' :: rest => (.obj [] .closed, rest)
      | rest => scanMembers fuel [] rest
    | 'n' :: rest => scanName .null ['u', 'l', 'l'] rest
    | 't' :: rest => scanName (.bool true) ['r', 'u', 'e'] rest
    | 'f' :: rest => scanName (.bool false) ['a', 'l', 's', 'e'] rest
    | '-' :: rest => scanNumber true rest
    | c :: rest =>
      if c.isDigit then scanNumber false (c :: rest)
      else (.garbled .expectedValue (some .expectedValue), [])

/-- Reads items up to the closing bracket; `acc` holds those before, the last one first. -/
def scanItems : Nat → List Document → List Char → Document × List Char
  | 0, acc, _ => (.arr acc.reverse .ended, [])
  | fuel + 1, acc, cs =>
    let (item, rest) := scanValue fuel cs
    let acc := item :: acc
    if halts item then (.arr acc.reverse .junk, [])
    else
      match skipSpace rest with
      | [] => (.arr acc.reverse .ended, [])
      | ']' :: rest => (.arr acc.reverse .closed, rest)
      | ',' :: rest =>
        match skipSpace rest with
        | [] => (.arr acc.reverse .commaEnded, [])
        | ']' :: _ => (.arr acc.reverse .commaClosed, [])
        | rest => scanItems fuel acc rest
      | _ => (.arr acc.reverse .junk, [])

/-- Reads members up to the closing brace; `acc` holds those before, the last one first. -/
def scanMembers : Nat → List (Literal × Document) → List Char → Document × List Char
  | 0, acc, _ => (.obj acc.reverse .ended, [])
  | fuel + 1, acc, cs =>
    match cs with
    | '"' :: rest =>
      let (key, rest) := scanString "" none (rest.length + 1) rest
      if key.broken.isSome then (.obj ((key, .missing .endOfValue) :: acc).reverse .junk, [])
      else
        match skipSpace rest with
        | [] => (.obj ((key, .missing .endOfObject) :: acc).reverse .junk, [])
        | ':' :: rest =>
          let (value, rest) := scanValue fuel rest
          let acc := (key, value) :: acc
          if halts value then (.obj acc.reverse .junk, [])
          else
            match skipSpace rest with
            | [] => (.obj acc.reverse .ended, [])
            | '\x7d' :: rest => (.obj acc.reverse .closed, rest)
            | ',' :: rest =>
              match skipSpace rest with
              | [] => (.obj acc.reverse .commaEnded, [])
              | '\x7d' :: _ => (.obj acc.reverse .commaClosed, [])
              | rest => scanMembers fuel acc rest
            | _ => (.obj acc.reverse .junk, [])
        | _ => (.obj ((key, .missing .expectedColon) :: acc).reverse .junk, [])
    | _ => (.obj acc.reverse .notName, [])

end

/-- Reads one value; the second part is the text after it. -/
def scan (cs : List Char) : Document × List Char := scanValue (cs.length + 1) cs

end TaskSwarm.Json
