/-
The text of settings.

Every member has a line of its own, and members of members stand two columns
further in. A string is written without quotation marks where that reads back
as the same string; else between single marks, and between double marks if it
holds what only an escape can say. A string of several lines is written as
lines.
-/
import TaskSwarm.Document.Read
import TaskSwarm.Document.Scalar
import TaskSwarm.Json.Printer
import TaskSwarm.Yaml.Character

set_option autoImplicit false

namespace TaskSwarm.Yaml

/-! ## What a string looks like -/

/-- The words for truth values. -/
def isTruthWord (text : String) : Bool :=
  ["true", "True", "TRUE", "false", "False", "FALSE"].contains text

/-- Whether a number in digits of any base fits into 128 bits. -/
def isWideInteger (text : String) : Bool :=
  (Scalar.readInt? text).any fun n => -0x80000000000000000000000000000000 ≤ n && n < 0x100000000000000000000000000000000

/-- Whether a text has a sign or none, and then digits that start with a zero they do not need. -/
def isPaddedNumber (text : String) : Bool :=
  match text.toList with
  | '-' :: cs | '+' :: cs => Scalar.hasIdleZero cs
  | cs => Scalar.hasIdleZero cs

/-- Whether a text without quotation marks would be read as something else than a string. -/
def looksLikeOther (text : String) : Bool :=
  text.isEmpty || isNullWord text || isTruthWord text || isWideInteger text ||
    (Scalar.readFloat? text).isSome || isPaddedNumber text

/-- Whether a character that is not the first makes a plain text mean something else, between its neighbours. -/
def isDisturbing (before c : Char) (after : List Char) : Bool :=
  (c = ':' && atGap after) || (c = '#' && isGap before)

/-- Whether something in a text after its first character `before` makes it mean something else. -/
def isDisturbed (before : Char) : List Char → Bool
  | [] => false
  | c :: rest => isDisturbing before c rest || isDisturbed c rest

/-- Whether a plain text cannot start so. -/
def startsBadly : List Char → Bool
  | '-' :: '-' :: '-' :: _ | '.' :: '.' :: '.' :: _ => true
  | c :: rest =>
    if c = '-' || c = '?' || c = ':' then atGap rest else isIndicator c
  | [] => true

/-- Whether two neighbours in a text are a space and a break, in this order if `spaceFirst`. -/
def hasNeighbours (spaceFirst : Bool) : List Char → Bool
  | a :: b :: rest =>
    (if spaceFirst then a = ' ' && isBreak b else isBreak a && b = ' ') || hasNeighbours spaceFirst (b :: rest)
  | _ => false

/-- Whether a text starts or ends with a space. -/
def hasOuterSpace (cs : List Char) : Bool := cs.head? = some ' ' || cs.getLast? = some ' '

/-- Whether a text may stand without quotation marks. -/
def mayBePlain (cs : List Char) : Bool :=
  cs.all isPrintable && !cs.any isBreak && !hasOuterSpace cs && !startsBadly cs &&
    !isDisturbed (cs.headD ' ') cs.tail

/-- Whether a text may stand between single marks. -/
def mayBeSingle (cs : List Char) : Bool :=
  cs.all isPrintable && !hasNeighbours true cs && !hasNeighbours false cs

/-- Whether a text may be written as lines. -/
def mayBeLines (cs : List Char) : Bool :=
  cs.all isPrintable && !hasNeighbours true cs && cs.getLast? ≠ some ' '

/-! ## Quotation -/

/-- The letter of an escape. -/
def escapeLetter? : Char → Option Char
  | '\x00' => some '0'
  | '\x07' => some 'a'
  | '\x08' => some 'b'
  | '\t' => some 't'
  | '\n' => some 'n'
  | '\x0b' => some 'v'
  | '\x0c' => some 'f'
  | '\r' => some 'r'
  | '\x1b' => some 'e'
  | '"' => some '"'
  | '\\' => some '\\'
  | '\u0085' => some 'N'
  | '\u00a0' => some '_'
  | '\u2028' => some 'L'
  | '\u2029' => some 'P'
  | _ => none

/-- The last `width` digits of a number in base sixteen, in upper case. -/
def upperHexDigits (width n : Nat) : List Char := (Text.hexDigits width n).map Char.toUpper

/-- The escape of a character. -/
def escaped (c : Char) : List Char :=
  match escapeLetter? c with
  | some letter => ['\\', letter]
  | none =>
    let n := c.toNat
    if n ≤ 0xFF then ['\\', 'x'] ++ upperHexDigits 2 n
    else if n ≤ 0xFFFF then ['\\', 'u'] ++ upperHexDigits 4 n
    else ['\\', 'U'] ++ upperHexDigits 8 n

/-- A character between double marks. -/
def doubleChar (c : Char) : List Char :=
  if !isPrintable c || isBreak c || c = '"' || c = '\\' then escaped c else [c]

/-- A text between double marks. -/
def double (cs : List Char) : List Char := '"' :: cs.flatMap doubleChar ++ ['"']

/-- Blanks at the start of a line. -/
def margin (indent : Nat) : List Char := List.replicate indent ' '

/-- The characters between single marks, with a margin after a break. -/
def singleChars (indent : Nat) (broken : Bool) : List Char → List Char
  | [] => if broken then margin indent else []
  | c :: rest =>
    if isBreak c then c :: singleChars indent true rest
    else
      let start := if broken then margin indent else []
      start ++ (if c = '\'' then ['\'', '\''] else [c]) ++ singleChars indent false rest

/-- A text between single marks. -/
def single (indent : Nat) (cs : List Char) : List Char := '\'' :: singleChars indent false cs ++ ['\'']

/-! ## Lines -/

/-- The sign for what becomes of the breaks at the end. -/
def chompingSign (cs : List Char) : List Char :=
  match cs.reverse with
  | [] => ['-']
  | last :: before =>
    if !isBreak last then ['-']
    else
      match before with
      | [] => ['+']
      | b :: _ => if isBreak b then ['+'] else []

/-- The characters of lines, each line with its margin. -/
def lineChars (indent : Nat) (fresh : Bool) : List Char → List Char
  | [] => []
  | c :: rest =>
    if isBreak c then c :: lineChars indent true rest
    else (if fresh then margin indent else []) ++ c :: lineChars indent false rest

/-- A text written as lines, up to the start of the next line. -/
def lines (indent : Nat) (cs : List Char) : List Char :=
  let depth := if cs.head?.any (fun c => c = ' ' || isBreak c) then ['2'] else []
  let ended := cs.getLast?.any isBreak
  '|' :: depth ++ chompingSign cs ++ '\n' :: lineChars indent true cs ++ (if ended then [] else ['\n'])

/-! ## Strings -/

/-- A string on one line, or on several if it has a break that is no line feed. -/
def quotedOrPlain (indent : Nat) (s : String) : List Char :=
  let cs := s.toList
  if !looksLikeOther s && mayBePlain cs then cs
  else if mayBeSingle cs then single indent cs
  else double cs

/-- A string up to the start of the next line. -/
def stringLine (indent : Nat) (s : String) : List Char :=
  if s.toList.contains '\n' then
    if mayBeLines s.toList then lines indent s.toList else double s.toList ++ ['\n']
  else quotedOrPlain indent s ++ ['\n']

/-- The longest name of a member, in bytes, that stands on one line with its value. -/
def maxKey : Nat := 128

/-- Whether the name of a member stands on one line with its value. -/
def isSimpleKey (k : String) : Bool := k.utf8ByteSize ≤ maxKey && !k.toList.any isBreak

/-! ## Values -/

/-- A double; those that have no digits have names. -/
def floatChars (x : Float) : List Char :=
  if Decimal.isFinite x then (Decimal.Layout.configuration.render x).toList
  else if x.isNaN then ['.', 'n', 'a', 'n']
  else if x < 0.0 then ['-', '.', 'i', 'n', 'f']
  else ['.', 'i', 'n', 'f']

/-- A number. -/
def numberChars : Number → List Char
  | .int n => Json.intChars n
  | .real x => floatChars x

/-- The name of a member with its mark, and whether its value starts beside it. A long name, and one of
several lines, has lines for itself. -/
def keyChars (indent : Nat) (k : String) : List Char × Bool :=
  if isSimpleKey k then (quotedOrPlain indent k ++ [':'], false)
  else ('?' :: ' ' :: stringLine (indent + 2) k ++ margin indent ++ [':'], true)

mutual

/-- A value that follows a mark, up to the start of the next line. After a colon (`inline` false) a
collection starts on a line of its own; after other marks it starts beside them. `indent` is the
column of the collection the value belongs to. -/
def valueChars (indent : Nat) (inline : Bool) : Json → List Char
  | .null => [' ', 'n', 'u', 'l', 'l', '\n']
  | .bool b => ' ' :: Json.boolChars b ++ ['\n']
  | .num n => ' ' :: numberChars n ++ ['\n']
  | .str s => ' ' :: stringLine (indent + 2) s
  | .arr [] => [' ', '[', ']', '\n']
  | .arr (x :: xs) =>
    let column := if inline then indent + 2 else indent
    (if inline then [' '] else '\n' :: margin column) ++ itemsChars column (x :: xs)
  | .obj [] => [' ', '\x7b', '\x7d', '\n']
  | .obj (m :: ms) =>
    (if inline then [' '] else '\n' :: margin (indent + 2)) ++ membersChars (indent + 2) (m :: ms)

/-- Items from the first one on, which needs no margin. -/
def itemsChars (indent : Nat) : List Json → List Char
  | [] => []
  | [x] => '-' :: valueChars indent true x
  | x :: y :: ys => '-' :: valueChars indent true x ++ margin indent ++ itemsChars indent (y :: ys)

/-- Members from the first one on, which needs no margin. -/
def membersChars (indent : Nat) : List (String × Json) → List Char
  | [] => []
  | [(k, v)] =>
    let (key, inline) := keyChars indent k
    key ++ valueChars indent inline v
  | (k, v) :: m :: ms =>
    let (key, inline) := keyChars indent k
    key ++ valueChars indent inline v ++ margin indent ++ membersChars indent (m :: ms)

end

/-- The text of a value. -/
def render : Json → String
  | .obj (m :: ms) => String.ofList (membersChars 0 (m :: ms))
  | .arr (x :: xs) => String.ofList (itemsChars 0 (x :: xs))
  | .str s => String.ofList (stringLine 2 s)
  | j => String.ofList ((valueChars 0 true j).drop 1)

end TaskSwarm.Yaml
