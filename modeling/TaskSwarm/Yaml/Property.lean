/-
Names, tags and directives of a configuration text.

Values may be named, to be referred to later, and tagged with what they are. A
tag begins with a handle, an abbreviation that a directive may declare.
-/
import TaskSwarm.Yaml.Cursor
import TaskSwarm.Yaml.Token

set_option autoImplicit false

namespace TaskSwarm.Yaml.Property

/-! ## Anchors and aliases -/

/-- Whether a name may end before a text. -/
def endsName : List Char → Bool
  | [] => true
  | c :: _ => isGap c || ['?', ':', ',', ']', '\x7d', '%', '@', '\x60'].contains c

/-- Reads the name after the mark of an anchor or an alias. -/
def name (c : Cursor) : Option (String × Cursor) :=
  let c := c.skip 1
  let cs := c.rest.takeWhile isNameChar
  let c := c.skip cs.length
  if cs.isEmpty || !endsName c.rest then none else some (String.ofList cs, c)

/-! ## Tags -/

/-- Whether a character may be part of a tag. -/
def isTagChar (verbatim : Bool) (c : Char) : Bool :=
  isNameChar c ||
    [';', '/', '?', ':', '@', '&', '=', '+', '$', '.', '%', '!', '~', '*', '\'', '(', ')'].contains c ||
    (verbatim && [',', '[', ']'].contains c)

/-- Whether every percent sign is followed by two digits in base sixteen. -/
def isEscapedWell : List Char → Bool
  | [] => true
  | '%' :: a :: b :: rest => isHexDigit a && isHexDigit b && isEscapedWell rest
  | '%' :: _ => false
  | _ :: rest => isEscapedWell rest
where
  /-- Whether a character is a digit in base sixteen. -/
  isHexDigit (c : Char) : Bool :=
    c.isDigit || ('a' ≤ c && c ≤ 'f') || ('A' ≤ c && c ≤ 'F')

/-- Reads the characters of a tag. -/
def tagChars (verbatim : Bool) (c : Cursor) : Option (List Char × Cursor) :=
  let cs := c.rest.takeWhile (isTagChar verbatim)
  if isEscapedWell cs then some (cs, c.skip cs.length) else none

/-- The handle at a mark: the mark alone, or a name between two marks. -/
def handle (c : Cursor) : List Char :=
  match c.rest with
  | '!' :: rest =>
    let name := rest.takeWhile isNameChar
    match rest.drop name.length with
    | '!' :: _ => '!' :: name ++ ['!']
    | _ => '!' :: name
  | _ => []

/-- Whether a handle has a mark at both ends. -/
def isFullHandle (h : List Char) : Bool := 2 ≤ h.length && h.getLast? = some '!'

/-- Reads a tag without its surroundings. -/
def bareTag (c : Cursor) : Option (Token × Cursor) :=
  match c.rest with
  | '!' :: '<' :: _ => do
    let (cs, c) ← tagChars true (c.skip 2)
    if cs.isEmpty || c.rest.head? ≠ some '>' then none
    else return (.tag "" (String.ofList cs), c.skip 1)
  | _ =>
    let h := handle c
    if isFullHandle h then do
      let (cs, c) ← tagChars false (c.skip h.length)
      if cs.isEmpty then none else return (.tag (String.ofList h) (String.ofList cs), c)
    else do
      let (cs, c) ← tagChars false (c.skip 1)
      return (if cs.isEmpty then .tag "" "!" else .tag "!" (String.ofList cs), c)

/-- Reads a tag. -/
def tag (flow : Bool) (c : Cursor) : Option (Token × Cursor) := do
  let (t, c) ← bareTag c
  if atGap c.rest || (flow && c.rest.head? = some ',') then return (t, c) else none

/-! ## Directives -/

/-- Reads digits, of which there have to be some, but no more than nine. -/
def digits (c : Cursor) : Option (Nat × Cursor) :=
  let ds := c.rest.takeWhile Char.isDigit
  if ds.isEmpty || 9 < ds.length then none
  else some (ds.foldl (fun n d => n * 10 + (d.toNat - 48)) 0, c.skip ds.length)

/-- Reads the rest of a directive for a version. -/
def version (c : Cursor) : Option (Token × Cursor) := do
  let (major, c) ← digits c.skipBlanks
  if c.rest.head? ≠ some '.' then none
  else
    let (minor, c) ← digits (c.skip 1)
    return (.version major minor, c)

/-- Reads the rest of a directive for a handle. -/
def tagHandle (c : Cursor) : Option (Token × Cursor) := do
  let c := c.skipBlanks
  let h := handle c
  let after := c.skip h.length
  if h.isEmpty || !(h = ['!'] || isFullHandle h) || !after.rest.head?.any isBlank then none
  else
    let (cs, c) ← tagChars true after.skipBlanks
    if cs.isEmpty || !atGap c.rest then none else return (.tagHandle (String.ofList h) (String.ofList cs), c)

/-- Reads a directive, which has a line for itself. -/
def directive (c : Cursor) : Option (Token × Cursor) := do
  let c := c.skip 1
  let word := c.rest.takeWhile isNameChar
  let c := c.skip word.length
  if !atGap c.rest then none
  else
    let (token, c) ←
      match String.ofList word with
      | "YAML" => version c
      | "TAG" => tagHandle c
      | _ => none
    let c := c.skipBlanks.skipComment
    match c.rest with
    | [] => return (token, c)
    | d :: _ => if isBreak d then return (token, c.skipBreak) else none

end TaskSwarm.Yaml.Property
