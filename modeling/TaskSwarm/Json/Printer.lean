/-
The text of a JSON value.

Messages and log lines are written without any blank between tokens, and
answers for people with one member or item a line. Strings escape what JSON
demands and nothing else: quotation marks, backslashes and the characters
below U+0020, of which five have short forms.
-/
import TaskSwarm.Decimal.Layout
import TaskSwarm.Json.Value
import TaskSwarm.Text.Hex

set_option autoImplicit false

namespace TaskSwarm.Json

/-! ## Scalars -/

/-- One character of a string. -/
def escapeChar (c : Char) : List Char :=
  match c with
  | '"' => ['\\', '"']
  | '\\' => ['\\', '\\']
  | '\x08' => ['\\', 'b']
  | '\x0c' => ['\\', 'f']
  | '\n' => ['\\', 'n']
  | '\r' => ['\\', 'r']
  | '\t' => ['\\', 't']
  | c =>
    if c.toNat < 0x20 then ['\\', 'u'] ++ Text.hexDigits 4 c.toNat
    else [c]

/-- A string between quotation marks. -/
def stringChars (s : String) : List Char :=
  '"' :: s.toList.flatMap escapeChar ++ ['"']

/-- The digits of a whole number, with its sign. -/
def intChars (n : Int) : List Char :=
  match n with
  | .ofNat k => Nat.toDigits 10 k
  | .negSucc k => '-' :: Nat.toDigits 10 (k + 1)

/-- A number. A double that is infinite or no number has no text in JSON and becomes null. -/
def numberChars : Number → List Char
  | .int n => intChars n
  | .real x =>
    if Decimal.isFinite x then (Decimal.Layout.message.render x).toList else ['n', 'u', 'l', 'l']

/-- A truth value. -/
def boolChars (b : Bool) : List Char :=
  if b then ['t', 'r', 'u', 'e'] else ['f', 'a', 'l', 's', 'e']

/-! ## Compact text -/

mutual

/-- The text of a value, without blanks between its tokens. -/
def chars : Json → List Char
  | .null => ['n', 'u', 'l', 'l']
  | .bool b => boolChars b
  | .num n => numberChars n
  | .str s => stringChars s
  | .arr items => '[' :: itemsChars items ++ [']']
  | .obj members => '\x7b' :: membersChars members ++ ['\x7d']

/-- Items with a comma between any two. -/
def itemsChars : List Json → List Char
  | [] => []
  | [x] => x.chars
  | x :: y :: ys => x.chars ++ ',' :: itemsChars (y :: ys)

/-- Members with a comma between any two. -/
def membersChars : List (String × Json) → List Char
  | [] => []
  | [(k, v)] => stringChars k ++ ':' :: v.chars
  | (k, v) :: m :: ms => stringChars k ++ ':' :: v.chars ++ ',' :: membersChars (m :: ms)

end

/-- The compact text of a value. -/
def render (j : Json) : String := String.ofList j.chars

/-! ## Indented text -/

/-- The start of a line that stands `depth` levels in. -/
def newline (depth : Nat) : List Char := '\n' :: List.replicate (2 * depth) ' '

mutual

/-- The text of a value whose first line stands `depth` levels in, one item or member a line. -/
def indentedChars (depth : Nat) : Json → List Char
  | .arr [] => ['[', ']']
  | .arr (x :: xs) => '[' :: indentedItems (depth + 1) (x :: xs) ++ newline depth ++ [']']
  | .obj [] => ['\x7b', '\x7d']
  | .obj (m :: ms) => '\x7b' :: indentedMembers (depth + 1) (m :: ms) ++ newline depth ++ ['\x7d']
  | j => j.chars

/-- Items, each on a line of its own. -/
def indentedItems (depth : Nat) : List Json → List Char
  | [] => []
  | [x] => newline depth ++ indentedChars depth x
  | x :: y :: ys => newline depth ++ indentedChars depth x ++ ',' :: indentedItems depth (y :: ys)

/-- Members, each on a line of its own. -/
def indentedMembers (depth : Nat) : List (String × Json) → List Char
  | [] => []
  | [(k, v)] => newline depth ++ stringChars k ++ ':' :: ' ' :: indentedChars depth v
  | (k, v) :: m :: ms =>
    newline depth ++ stringChars k ++ ':' :: ' ' :: indentedChars depth v
      ++ ',' :: indentedMembers depth (m :: ms)

end

/-- The indented text of a value. -/
def renderIndented (j : Json) : String := String.ofList (indentedChars 0 j)

end TaskSwarm.Json
