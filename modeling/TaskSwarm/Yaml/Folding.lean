/-
Breaks inside a scalar.

A scalar may go on over several lines. A single break between two words then
stands for a space, and of several breaks the first is left out.
-/
import TaskSwarm.Yaml.Cursor

set_option autoImplicit false

namespace TaskSwarm.Yaml

/-- What stands between two words of a scalar. -/
structure Gap where
  /-- The blanks of a gap within a line. -/
  blanks : List Char
  /-- Whether a line has ended in the gap. -/
  broken : Bool
  /-- The first break, unless it was escaped. -/
  first : Option Char
  /-- The breaks after the first. -/
  more : List Char
  deriving Repr

namespace Gap

/-- Nothing. -/
def empty : Gap := ⟨[], false, none, []⟩

/-- The gap after a break that was escaped. -/
def escaped : Gap := ⟨[], true, none, []⟩

/-- What a gap stands for. -/
def folded (g : Gap) : List Char :=
  match g.first with
  | none => g.blanks ++ g.more
  | some '\n' => if g.more.isEmpty then [' '] else g.more
  | some b => b :: g.more

/-- A gap within a line stands for itself. -/
theorem folded_blanks (bs : List Char) : folded ⟨bs, false, none, []⟩ = bs := by simp [folded]

/-- A single break stands for a space. -/
theorem folded_newline : folded ⟨[], true, some '\n', []⟩ = [' '] := rfl

/-- Reads a gap. Nothing comes of a tab at the start of a line, in a column before `least`. -/
def scan (least : Nat) : Nat → Gap → Cursor → Option (Gap × Cursor)
  | 0, g, c => some (g, c)
  | fuel + 1, g, c =>
    match c.rest with
    | [] => some (g, c)
    | d :: _ =>
      if isBlank d then
        if !g.broken then scan least fuel { g with blanks := g.blanks ++ [d] } (c.skip 1)
        else if d = '\t' && c.column < least then none
        else scan least fuel g (c.skip 1)
      else if isBreak d then
        let b := Cursor.breakChar d
        if g.broken then scan least fuel { g with more := g.more ++ [b] } c.skipBreak
        else scan least fuel ⟨[], true, some b, []⟩ c.skipBreak
      else some (g, c)

end Gap

end TaskSwarm.Yaml
