/-
From text to tokens.

What a token means depends on where it stands. Columns decide where collections
without brackets begin and end; and a colon makes a key of what stands before
it, so that places where a key may have begun are remembered. Such a place lasts
for one line and 1024 characters.
-/
import TaskSwarm.Yaml.Block
import TaskSwarm.Yaml.Plain
import TaskSwarm.Yaml.Property
import TaskSwarm.Yaml.Quoted

set_option autoImplicit false

namespace TaskSwarm.Yaml

/-- A place where a key may have begun. -/
structure KeyPlace where
  /-- The number of tokens before. -/
  index : Nat
  line : Nat
  offset : Nat
  column : Nat
  /-- Whether nothing but a key can stand there. -/
  required : Bool
  deriving Repr

/-- How far a text has been taken apart. -/
structure Progress where
  cursor : Cursor
  /-- The tokens so far, the last one first. -/
  tokens : List Token
  count : Nat
  /-- The columns of the open collections without brackets, innermost first. -/
  columns : List Nat
  /-- Whether a key or a dash may stand at the cursor. -/
  keyAllowed : Bool
  /-- Where a key may have begun, outside of all brackets. -/
  place : Option KeyPlace
  /-- The same within each pair of brackets, innermost first. -/
  inner : List (Option KeyPlace)
  deriving Repr

namespace Progress

/-- Before the first token. -/
def start (cs : List Char) : Progress := ⟨.start cs, [], 0, [], true, none, []⟩

/-- Whether the cursor stands within brackets. -/
def flow (p : Progress) : Bool := !p.inner.isEmpty

/-- The least column of a line that belongs to the innermost collection. -/
def depth (p : Progress) : Nat :=
  match p.columns with
  | [] => 0
  | n :: _ => n + 1

/-- Adds a token. -/
def emit (p : Progress) (t : Token) : Progress := { p with tokens := t :: p.tokens, count := p.count + 1 }

/-- Adds a token before those that came after the first `index`. -/
def emitAt (p : Progress) (index : Nat) (t : Token) : Progress :=
  let later := p.count - index
  { p with
    tokens := p.tokens.take later ++ t :: p.tokens.drop later
    count := p.count + 1 }

/-! ## Collections without brackets -/

/-- Ends the collections whose lines start at column `depth` or further in. -/
def close (depth : Nat) (p : Progress) : Progress :=
  let ended := p.columns.takeWhile (depth ≤ ·)
  { p with
    tokens := List.replicate ended.length .blockEnd ++ p.tokens
    count := p.count + ended.length
    columns := p.columns.drop ended.length }

/-- Begins a collection at a column further in than the one that is open, with a token before the first `index`. -/
def openAt (p : Progress) (column index : Nat) (t : Token) : Progress :=
  if p.flow || column < p.depth then p
  else { p.emitAt index t with columns := column :: p.columns }

/-- Begins a collection at the cursor. -/
def openHere (p : Progress) (t : Token) : Progress := p.openAt p.cursor.column p.count t

/-! ## Places of keys -/

/-- The place within the innermost brackets. -/
def currentPlace (p : Progress) : Option KeyPlace :=
  match p.inner with
  | [] => p.place
  | k :: _ => k

/-- Sets the place within the innermost brackets. -/
def setPlace (p : Progress) (k : Option KeyPlace) : Progress :=
  match p.inner with
  | [] => { p with place := k }
  | _ :: rest => { p with inner := k :: rest }

/-- Gives the current place up; nothing comes of it if a key had to be there. -/
def dropPlace (p : Progress) : Option Progress :=
  match p.currentPlace with
  | some k => if k.required then none else some (p.setPlace none)
  | none => some p

/-- Notes that a key may begin at the cursor. -/
def markPlace (p : Progress) : Option Progress :=
  if !p.keyAllowed then some p
  else do
    let c := p.cursor
    let required := !p.flow && p.columns.head? = some c.column
    let p ← p.dropPlace
    return p.setPlace (some ⟨p.count, c.line, c.offset, c.column, required⟩)

/-- How far back a key may have begun. -/
def reach : Nat := 1024

/-- Whether a place is too far back. -/
def isStale (c : Cursor) (k : KeyPlace) : Bool := k.line < c.line || k.offset + reach < c.offset

/-- A place if it is still near; nothing comes of it if it is not and a key had to be there. -/
def refresh (c : Cursor) : Option KeyPlace → Option (Option KeyPlace)
  | none => some none
  | some k => if !isStale c k then some (some k) else if k.required then none else some none

/-- Forgets the places that are too far back. -/
def refreshPlaces (p : Progress) : Option Progress := do
  let place ← refresh p.cursor p.place
  let inner ← p.inner.mapM (refresh p.cursor)
  return { p with place := place, inner := inner }

/-! ## Up to the next token -/

/-- Past blanks, comments and breaks. -/
def skipGap : Nat → Progress → Progress
  | 0, p => p
  | fuel + 1, p =>
    let tabs := p.flow || !p.keyAllowed
    let blanks := p.cursor.rest.takeWhile fun d => d = ' ' || (tabs && d = '\t')
    let c := (p.cursor.skip blanks.length).skipComment
    match c.rest with
    | d :: _ =>
      if isBreak d then
        skipGap fuel { p with cursor := c.skipBreak, keyAllowed := p.keyAllowed || !p.flow }
      else { p with cursor := c }
    | [] => { p with cursor := c }

/-- Past a mark for the order of bytes. -/
def skipByteOrder (p : Progress) : Progress :=
  if p.cursor.offset = 0 && p.cursor.rest.head? = some '\uFEFF' then { p with cursor := p.cursor.skip 1 }
  else p

/-! ## Single tokens -/

/-- Adds a token for marks at the cursor. -/
def take (p : Progress) (length : Nat) (t : Token) : Progress :=
  { p.emit t with cursor := p.cursor.skip length }

/-- Allows or forbids a key at the cursor. -/
def allowKey (p : Progress) (allowed : Bool) : Progress := { p with keyAllowed := allowed }

/-- Adds a token that stands at the start of a line outside of all collections. -/
def outermost (p : Progress) : Option Progress := do
  let p ← (close 0 p).dropPlace
  return p.allowKey false

/-- A bracket that opens. -/
def openBracket (p : Progress) (t : Token) : Option Progress := do
  let p ← p.markPlace
  return ({ p with inner := none :: p.inner }.allowKey true).take 1 t

/-- A bracket that closes. -/
def closeBracket (p : Progress) (t : Token) : Option Progress := do
  let p ← p.dropPlace
  return ({ p with inner := p.inner.tail }.allowKey false).take 1 t

/-- A comma. -/
def comma (p : Progress) : Option Progress := do
  let p ← p.dropPlace
  return (p.allowKey true).take 1 .comma

/-- A dash before an item. -/
def entry (p : Progress) : Option Progress :=
  if !p.flow && !p.keyAllowed then none
  else do
    let p ← (p.openHere .blockSequence).dropPlace
    return (p.allowKey true).take 1 .entry

/-- A question mark before a key. -/
def key (p : Progress) : Option Progress :=
  if !p.flow && !p.keyAllowed then none
  else do
    let p ← (p.openHere .blockMapping).dropPlace
    return (p.allowKey !p.flow).take 1 .key

/-- A colon before a value. -/
def value (p : Progress) : Option Progress := do
  match ← refresh p.cursor p.currentPlace with
  | some k =>
    -- The key has been read already, so what announces it goes in before its tokens.
    let p := ((p.emitAt k.index .key).openAt k.column k.index .blockMapping).setPlace none
    return (p.allowKey false).take 1 .value
  | none =>
    if !p.flow && !p.keyAllowed then none
    else return ((p.openHere .blockMapping).allowKey !p.flow).take 1 .value

/-- A scalar that was read. -/
def scalar (p : Progress) (text : List Char) (plain : Bool) (after : Cursor) : Progress :=
  { p.emit (.scalar (String.ofList text) plain) with cursor := after }

/-- Lines after a bar or an angle. -/
def block (p : Progress) (joined : Bool) : Option Progress := do
  let p ← p.dropPlace
  let (text, after) ← Block.scan joined p.depth (p.cursor.skip 1)
  return (p.allowKey true).scalar text false after

/-- A scalar in quotation marks. -/
def quoted (p : Progress) (mark : Char) : Option Progress := do
  let p ← p.markPlace
  let (text, after) ← Quoted.scan mark p.cursor
  return (p.allowKey false).scalar text false after

/-- A scalar without quotation marks. -/
def plain (p : Progress) : Option Progress := do
  let p ← p.markPlace
  let r ← Plain.scan p.depth p.flow p.cursor
  return (p.allowKey r.broken).scalar r.text true r.after

/-- An anchor or an alias. -/
def named (p : Progress) (make : String → Token) : Option Progress := do
  let p ← p.markPlace
  let (name, after) ← Property.name p.cursor
  return { (p.allowKey false).emit (make name) with cursor := after }

/-- A tag. -/
def tag (p : Progress) : Option Progress := do
  let p ← p.markPlace
  let (t, after) ← Property.tag p.flow p.cursor
  return { (p.allowKey false).emit t with cursor := after }

/-- A directive. -/
def directive (p : Progress) : Option Progress := do
  let p ← p.outermost
  let (t, after) ← Property.directive p.cursor
  return { p.emit t with cursor := after }

/-- Whether a plain scalar may start with a mark that means something else before a blank. -/
def startsPlain (flow : Bool) (c : Char) (rest : List Char) : Bool :=
  !isIndicator c || (c = '-' && !rest.head?.any isBlank) || (!flow && (c = '?' || c = ':') && !atGap rest)

/-- The token at the cursor, which does not stand before a gap. -/
def next (p : Progress) (c : Char) (rest : List Char) : Option Progress :=
  let flow := p.flow
  if c = '%' && p.cursor.column = 0 then p.directive
  else if p.cursor.atMark '-' then do return (← p.outermost).take 3 .documentStart
  else if p.cursor.atMark '.' then do return (← p.outermost).take 3 .documentEnd
  else if c = '[' then p.openBracket .flowSequence
  else if c = '\x7b' then p.openBracket .flowMapping
  else if c = ']' then p.closeBracket .flowSequenceEnd
  else if c = '\x7d' then p.closeBracket .flowMappingEnd
  else if c = ',' then p.comma
  else if c = '-' && atGap rest then p.entry
  else if c = '?' && (flow || atGap rest) then p.key
  else if c = ':' && (flow || atGap rest) then p.value
  else if c = '*' then p.named .alias
  else if c = '&' then p.named .anchor
  else if c = '!' then p.tag
  else if c = '|' && !flow then p.block false
  else if c = '>' && !flow then p.block true
  else if c = '\'' || c = '"' then p.quoted c
  else if startsPlain flow c rest && !isGap c then p.plain
  else none

/-! ## All tokens -/

/-- The end of the text. -/
def finish (p : Progress) : Option (List Token) := do
  let p ← (close 0 p).dropPlace
  return p.tokens.reverse

/-- Takes one token after the other. -/
def run : Nat → Progress → Option (List Token)
  | 0, _ => none
  | fuel + 1, p => do
    let p ← (skipGap (p.cursor.rest.length + 1) p.skipByteOrder).refreshPlaces
    -- A token further out than the lines of a collection ends it.
    let p := if p.flow then p else close (p.cursor.column + 1) p
    match p.cursor.rest with
    | [] => p.finish
    | c :: rest => run fuel (← p.next c rest)

end Progress

/-- The tokens of a text, if it makes sense. -/
def Token.ofChars? (cs : List Char) : Option (List Token) :=
  if cs.all isAllowed then Progress.run (cs.length + 2) (.start cs) else none

end TaskSwarm.Yaml
