/-
Scalars without quotation marks.

A plain scalar ends before a colon that a blank follows, before a comment and
where a line stands further out than the collection it belongs to; within
brackets also before a bracket and a comma.
-/
import TaskSwarm.Yaml.Folding

set_option autoImplicit false

namespace TaskSwarm.Yaml.Plain

/-- A colon that cannot be told apart from one between a key and its value. -/
def isDoubtfulColon (flow : Bool) : List Char → Bool
  | ':' :: d :: _ => flow && (isFlowIndicator d || d = '?')
  | _ => false

/-- Whether a word is over. -/
def endsWord (flow : Bool) : List Char → Bool
  | [] => true
  | ':' :: rest => atGap rest
  | c :: _ => isGap c || (flow && isFlowIndicator c)

/-- The word at the start of a text. -/
def word (flow : Bool) : List Char → Option (List Char)
  | [] => some []
  | c :: rest =>
    if isDoubtfulColon flow (c :: rest) then none
    else if endsWord flow (c :: rest) then some []
    else (word flow rest).map (c :: ·)

/-- A plain scalar that was read. -/
structure Reading where
  text : List Char
  /-- Whether it is followed by a new line. -/
  broken : Bool
  after : Cursor

/-- Reads words and the gaps between them; `text` is what was read so far, and `gap` what stands after it. -/
def scanWords (depth : Nat) (flow : Bool) : Nat → List Char → Gap → Cursor → Option Reading
  | 0, _, _, _ => none
  | fuel + 1, text, gap, c =>
    if c.atBoundary || c.rest.head? = some '#' then some ⟨text, gap.broken, c⟩
    else do
      let w ← word flow c.rest
      let c := c.skip w.length
      let text := if w.isEmpty then text else text ++ gap.folded ++ w
      if c.rest.isEmpty || !atGap c.rest then return ⟨text, w.isEmpty && gap.broken, c⟩
      let (gap, c) ← Gap.scan depth (c.rest.length + 1) .empty c
      if !flow && c.column < depth then return ⟨text, gap.broken, c⟩
      scanWords depth flow fuel text gap c

/-- Reads a plain scalar in a collection whose lines start at column `depth` at least. -/
def scan (depth : Nat) (flow : Bool) (c : Cursor) : Option Reading :=
  scanWords depth flow (c.rest.length + 1) [] .empty c

end TaskSwarm.Yaml.Plain
