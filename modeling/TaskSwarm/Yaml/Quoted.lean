/-
Scalars in quotation marks.

Between single marks only the mark itself needs writing twice. Between double
marks a backslash starts an escape; before a break it joins the two lines.
-/
import TaskSwarm.Text.Hex
import TaskSwarm.Yaml.Folding

set_option autoImplicit false

namespace TaskSwarm.Yaml.Quoted

/-- The escapes of one letter. -/
def shortEscape? : Char → Option Char
  | '0' => some '\x00'
  | 'a' => some '\x07'
  | 'b' => some '\x08'
  | 't' | '\t' => some '\t'
  | 'n' => some '\n'
  | 'v' => some '\x0b'
  | 'f' => some '\x0c'
  | 'r' => some '\r'
  | 'e' => some '\x1b'
  | ' ' => some ' '
  | '"' => some '"'
  | '/' => some '/'
  | '\\' => some '\\'
  | 'N' => some '\u0085'
  | '_' => some '\u00a0'
  | 'L' => some '\u2028'
  | 'P' => some '\u2029'
  | _ => none

/-- How many digits in base sixteen follow the letter of an escape. -/
def escapeLength? : Char → Option Nat
  | 'x' => some 2
  | 'u' => some 4
  | 'U' => some 8
  | _ => none

/-- The character of an escape after its backslash, and how many characters the escape takes. -/
def escape? : List Char → Option (Char × Nat)
  | [] => none
  | c :: rest =>
    match shortEscape? c, escapeLength? c with
    | some d, _ => some (d, 1)
    | none, none => none
    | none, some length => do
      if (rest.take length).length < length then none
      else
        let n ← Text.hexValue? (rest.take length)
        if n.isValidChar then some (Char.ofNat n, length + 1) else none

/-- Reads up to a gap or the closing mark: what was read, and whether an escaped break ended it. -/
def word (mark : Char) : Nat → List Char → Cursor → Option (List Char × Bool × Cursor)
  | 0, acc, c => some (acc.reverse, false, c)
  | fuel + 1, acc, c =>
    match c.rest with
    | [] => some (acc.reverse, false, c)
    | d :: rest =>
      if isGap d then some (acc.reverse, false, c)
      else if d = mark then
        if mark = '\'' && rest.head? = some '\'' then word mark fuel ('\'' :: acc) (c.skip 2)
        else some (acc.reverse, false, c)
      else if mark = '"' && d = '\\' then
        if rest.head?.any isBreak then some (acc.reverse, true, (c.skip 1).skipBreak)
        else
          match escape? rest with
          | some (e, length) => word mark fuel (e :: acc) (c.skip (length + 1))
          | none => none
      else word mark fuel (d :: acc) (c.skip 1)

/-- Reads words and the gaps between them, up to the closing mark. -/
def scanWords (mark : Char) : Nat → List Char → Cursor → Option (List Char × Cursor)
  | 0, _, _ => none
  | fuel + 1, text, c => do
    if c.atBoundary || c.rest.isEmpty then none
    else
      let (w, escaped, c) ← word mark (c.rest.length + 1) [] c
      let text := text ++ w
      if c.rest.head? = some mark then return (text, c.skip 1)
      let (gap, c) ← Gap.scan 0 (c.rest.length + 1) (if escaped then .escaped else .empty) c
      scanWords mark fuel (text ++ gap.folded) c

/-- Reads a scalar that starts with the mark at this place. -/
def scan (mark : Char) (c : Cursor) : Option (List Char × Cursor) :=
  scanWords mark (c.rest.length + 1) [] (c.skip 1)

end TaskSwarm.Yaml.Quoted
