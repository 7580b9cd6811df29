/-
A place in a configuration text.

Columns tell how deep a line stands, and lines and offsets how far back a
possible key may lie, so a place knows them along with the text that follows.
-/
import TaskSwarm.Yaml.Character

set_option autoImplicit false

namespace TaskSwarm.Yaml

/-- A place in a text. -/
structure Cursor where
  /-- The text from here on. -/
  rest : List Char
  /-- The number of characters before. -/
  offset : Nat
  line : Nat
  column : Nat
  deriving Repr

namespace Cursor

/-- The start of a text. -/
def start (cs : List Char) : Cursor := ⟨cs, 0, 0, 0⟩

/-- Some characters further on the same line. -/
def skip (c : Cursor) (count : Nat) : Cursor :=
  { c with rest := c.rest.drop count, offset := c.offset + count, column := c.column + count }

/-- Past the break at the end of a line; a return and a line feed are one break. -/
def skipBreak (c : Cursor) : Cursor :=
  match c.rest with
  | '\r' :: '\n' :: rest => ⟨rest, c.offset + 2, c.line + 1, 0⟩
  | b :: rest => if isBreak b then ⟨rest, c.offset + 1, c.line + 1, 0⟩ else c
  | [] => c

/-- What a break stands for in a scalar. -/
def breakChar (b : Char) : Char := if b = '\u2028' || b = '\u2029' then b else '\n'

/-- Past a comment, up to the end of the line. -/
def skipComment (c : Cursor) : Cursor :=
  match c.rest with
  | '#' :: _ => c.skip (c.rest.takeWhile fun d => !isBreak d).length
  | _ => c

/-- Past spaces and tabs. -/
def skipBlanks (c : Cursor) : Cursor := c.skip (c.rest.takeWhile isBlank).length

/-- Whether a word of three such characters stands at the start of a line. -/
def atMark (c : Cursor) (mark : Char) : Bool :=
  c.column = 0 &&
    match c.rest with
    | x :: y :: z :: rest => x = mark && y = mark && z = mark && atGap rest
    | _ => false

/-- Whether a document starts or ends here. -/
def atBoundary (c : Cursor) : Bool := c.atMark '-' || c.atMark '.'

end Cursor

end TaskSwarm.Yaml
