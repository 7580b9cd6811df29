/-
Scalars of whole lines.

The lines that follow a bar or an angle are the scalar, as far as they stand in
far enough. After a bar they are kept as they are; after an angle lines are
joined, save those that start with a blank. A sign says what becomes of the
breaks at the end.
-/
import TaskSwarm.Yaml.Cursor

set_option autoImplicit false

namespace TaskSwarm.Yaml.Block

/-- What becomes of the breaks at the end. -/
inductive Chomping
  | strip
  /-- One is kept. -/
  | clip
  | keep
  deriving DecidableEq, Repr

/-- What is said before the lines. -/
structure Header where
  /-- Whether lines are joined. -/
  joined : Bool
  chomping : Chomping
  /-- How far in the lines stand, if it is said. -/
  indentation : Option Nat
  deriving Repr

/-- What a sign says about the end. -/
def chomping? : Char → Option Chomping
  | '-' => some .strip
  | '+' => some .keep
  | _ => none

/-- The digit that says how far in the lines stand. -/
def indentation? (c : Char) : Option Nat :=
  if '1' ≤ c ∧ c ≤ '9' then some (c.toNat - 48) else none

/-- Reads the signs after the bar or the angle; a zero says nothing that makes sense. -/
def signs (joined : Bool) (c : Cursor) : Option (Header × Cursor) :=
  match c.rest with
  | [] => some (⟨joined, .clip, none⟩, c)
  | a :: rest =>
    match chomping? a, indentation? a, rest with
    | some k, _, b :: _ =>
      if b = '0' then none
      else
        match indentation? b with
        | some n => some (⟨joined, k, some n⟩, c.skip 2)
        | none => some (⟨joined, k, none⟩, c.skip 1)
    | some k, _, [] => some (⟨joined, k, none⟩, c.skip 1)
    | none, some n, b :: _ =>
      match chomping? b with
      | some k => some (⟨joined, k, some n⟩, c.skip 2)
      | none => some (⟨joined, .clip, some n⟩, c.skip 1)
    | none, some n, [] => some (⟨joined, .clip, some n⟩, c.skip 1)
    | none, none, _ => if a = '0' then none else some (⟨joined, .clip, none⟩, c)

/-- Reads all that is said before the lines, up to their first. -/
def header (joined : Bool) (c : Cursor) : Option (Header × Cursor) := do
  let (h, c) ← signs joined c
  let c := c.skipBlanks.skipComment
  match c.rest with
  | [] => return (h, c)
  | d :: _ => if isBreak d then return (h, c.skipBreak) else none

/-- Empty lines before a line. -/
structure Empties where
  breaks : List Char
  /-- The furthest column reached in them and in what stands before the line. -/
  furthest : Nat
  after : Cursor

/-- Reads empty lines and the spaces before the line after them, up to `column` if that is known. -/
def scanEmpties (column : Option Nat) : Nat → List Char → Nat → Cursor → Option Empties
  | 0, breaks, furthest, c => some ⟨breaks, furthest, c⟩
  | fuel + 1, breaks, furthest, c =>
    let spaces := (c.rest.takeWhile (· = ' ')).length
    let c := c.skip (match column with
      | some n => min spaces (n - c.column)
      | none => spaces)
    let furthest := max furthest c.column
    match c.rest with
    | [] => some ⟨breaks, furthest, c⟩
    | d :: _ =>
      if d = '\t' && column.all (c.column < ·) then none
      else if isBreak d then
        scanEmpties column fuel (breaks ++ [Cursor.breakChar d]) furthest c.skipBreak
      else some ⟨breaks, furthest, c⟩

/-- What stands between two lines, given the break that ends the first and the empty lines after it. -/
def between (joined : Bool) (ending : List Char) (empties : List Char) (indented : Bool) : List Char :=
  if joined && ending.head? = some '\n' && !indented then
    if empties.isEmpty then [' '] else empties
  else ending ++ empties

/-- The end of the scalar, given the break that ends its last line and the empty lines after it. -/
def tail (k : Chomping) (ending empties : List Char) : List Char :=
  match k with
  | .strip => []
  | .clip => ending
  | .keep => ending ++ empties

/-- Reads lines that stand at `column`. -/
def scanLines (h : Header) (column : Nat) :
    Nat → (text ending empties : List Char) → (indented : Bool) → Cursor → Option (List Char × Cursor)
  | 0, _, _, _, _, _ => none
  | fuel + 1, text, ending, empties, indented, c =>
    if c.column = column && !c.rest.isEmpty then do
      let line := c.rest.takeWhile fun d => !isBreak d
      let starts := line.head?.any isBlank
      let text := text ++ between h.joined ending empties (indented || starts) ++ line
      let c := c.skip line.length
      let ending := match c.rest with
        | b :: _ => [Cursor.breakChar b]
        | [] => []
      let c := c.skipBreak
      let e ← scanEmpties (some column) (c.rest.length + 1) [] 0 c
      scanLines h column fuel text ending e.breaks starts e.after
    else some (text ++ tail h.chomping ending empties, c)

/-- Reads a scalar after its bar or angle, in a collection whose lines start at column `depth` at least. -/
def scan (joined : Bool) (depth : Nat) (c : Cursor) : Option (List Char × Cursor) := do
  let (h, c) ← header joined c
  -- The digit counts from the column of the collection around, or from zero if there is none.
  let fixed := h.indentation.map (depth - 1 + ·)
  let e ← scanEmpties fixed (c.rest.length + 1) [] 0 c
  let column := fixed.getD (max (max e.furthest depth) 1)
  scanLines h column (c.rest.length + 2) [] [] e.breaks false e.after

end TaskSwarm.Yaml.Block
