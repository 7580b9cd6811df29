/-
From tokens to a tree.

A tree is a scalar, a list or a set of members. A value may be named by an
anchor and stand again wherever an alias says so; an alias within the value it
names has no end, which who reads that place will find out.

A text holds one document. Anything after it is refused.
-/
import TaskSwarm.Document.Basic
import TaskSwarm.Yaml.Tokens

set_option autoImplicit false

namespace TaskSwarm.Yaml

/-! ## Reading tokens -/

/-- What is left to read, and what was named. -/
structure Reader where
  tokens : List Token
  /-- Names with their values, the last first; a value that is not complete is missing. -/
  anchors : List (String × Option Document)
  /-- The handles that tags may have, with what they stand for. -/
  handles : List (String × String)

/-- A step of reading, which may come to nothing. -/
abbrev Parse (α : Type) : Type := StateT Reader Option α

namespace Parse

/-- Nothing comes of it. -/
def fail {α : Type} : Parse α := fun _ => none

/-- The next token. -/
def peek : Parse (Option Token) := return (← get).tokens.head?

/-- Past the next token. -/
def skip : Parse Unit := modify fun r => { r with tokens := r.tokens.tail }

/-- Past the next token if it is a certain one. -/
def accept (t : Token) : Parse Bool := do
  if (← peek) = some t then
    skip
    return true
  else return false

/-- Past the next token, which has to be a certain one. -/
def expect (t : Token) : Parse Unit := do
  if ← accept t then return () else fail

end Parse

namespace Tree

open Parse

/-! ## Values -/

/-- No value. -/
def absent : Document := .scalar "" true none

/-- What a whole tag says of a scalar. -/
def meaning (tag : String) : ScalarTag :=
  if tag = "tag:yaml.org,2002:null" then .null
  else
    match tag.toList with
    | ['!'] => .name "!"
    | '!' :: name => .name (String.ofList name)
    | _ => .other

/-- The name of a member. Only a scalar can be one. -/
def keyOf : Document → Literal
  | .scalar text _ _ => .plain text
  | _ => ⟨"", none, some .keyNotString⟩

/-- Names the value that is about to be read; the number of names there are then. -/
def declare (name : Option String) : Parse Nat := do
  match name with
  | some name => modify fun r => { r with anchors := (name, none) :: r.anchors }
  | none => pure ()
  return (← get).anchors.length

/-- The value of the name that was the `count`th is complete. -/
def complete (name : Option String) (count : Nat) (d : Document) : Parse Document := do
  match name with
  | some name =>
    modify fun r =>
      { r with anchors := r.anchors.modify (r.anchors.length - count) fun _ => (name, some d) }
  | none => pure ()
  return d

/-- The value of a name. -/
def valueOf (name : String) : Parse Document := do
  match (← get).anchors.lookup name with
  | some (some d) => return d
  | some none => return .missing .tooDeep
  | none => fail

/-- Reads an anchor, if one stands here. -/
def anchor? : Parse (Option String) := do
  match ← peek with
  | some (.anchor name) =>
    skip
    return some name
  | _ => return none

/-- Reads a tag, if one stands here. -/
def tag? : Parse (Option String) := do
  match ← peek with
  | some (.tag "" rest) =>
    skip
    return some rest
  | some (.tag handle rest) =>
    match (← get).handles.lookup handle with
    | some start =>
      skip
      return some (start ++ rest)
    | none => fail
  | _ => return none

/-- Reads an anchor and a tag in either order. -/
def properties : Parse (Option String × Option String) := do
  match ← anchor? with
  | some name => return (some name, ← tag?)
  | none =>
    match ← tag? with
    | some tag => return (← anchor?, some tag)
    | none => return (none, none)

mutual

/-- Reads a value. Without brackets a collection may begin only where `block` says so, and a dash of
the collection around it where `indentless` does. -/
def value : Nat → (block indentless : Bool) → Parse Document
  | 0, _, _ => fail
  | fuel + 1, block, indentless => do
    let (name, tag) ← properties
    let marked := name.isSome || tag.isSome
    let nothing : Document := .scalar "" true (tag.map meaning)
    -- The name counts from here on, so that an alias within the value finds it unfinished.
    let count ← declare name
    match ← peek with
    | some (.alias other) =>
      if marked then fail
      else
        skip
        valueOf other
    | some (.scalar text plain) =>
      skip
      complete name count (.scalar text plain ((tag.filter (· ≠ "!")).map meaning))
    | some .entry =>
      if indentless then complete name count (.arr (← dashes fuel) .closed)
      else if marked then complete name count nothing
      else fail
    | some .flowSequence =>
      skip
      complete name count (.arr (← flowItems fuel true) .closed)
    | some .flowMapping =>
      skip
      complete name count (.obj (← flowMembers fuel true) .closed)
    | some .blockSequence =>
      if block then
        skip
        let items ← dashes fuel
        expect .blockEnd
        complete name count (.arr items .closed)
      else if marked then complete name count nothing
      else fail
    | some .blockMapping =>
      if block then
        skip
        let members ← blockMembers fuel
        expect .blockEnd
        complete name count (.obj members .closed)
      else if marked then complete name count nothing
      else fail
    | _ => if marked then complete name count nothing else fail

/-- Reads a value unless one of some tokens comes next. -/
def valueUnless : Nat → List Token → (block indentless : Bool) → Parse Document
  | 0, _, _, _ => fail
  | fuel + 1, stops, block, indentless => do
    let next ← peek
    if next.all stops.contains then return absent else value fuel block indentless

/-- Reads items, each after its dash. -/
def dashes : Nat → Parse (List Document)
  | 0 => fail
  | fuel + 1 => do
    if ← accept .entry then
      let item ← valueUnless fuel [.entry, .key, .value, .blockEnd] true false
      return item :: (← dashes fuel)
    else return []

/-- Reads members on lines of their own. -/
def blockMembers : Nat → Parse (List (Literal × Document))
  | 0 => fail
  | fuel + 1 => do
    if ← accept .key then
      let stops : List Token := [.key, .value, .blockEnd]
      let key ← valueUnless fuel stops true true
      let member ← if ← accept .value then valueUnless fuel stops true true else pure absent
      return (keyOf key, member) :: (← blockMembers fuel)
    else return []

/-- Reads the value of a member in brackets, if it has one. -/
def flowValue : Nat → List Token → Parse Document
  | 0, _ => fail
  | fuel + 1, stops => do
    if ← accept .value then valueUnless fuel (.comma :: stops) false false else return absent

/-- Reads items in brackets. One that has a colon is a mapping of its own. -/
def flowItems : Nat → (first : Bool) → Parse (List Document)
  | 0, _ => fail
  | fuel + 1, first => do
    if ← accept .flowSequenceEnd then return []
    else
      if !first then expect .comma
      if ← accept .flowSequenceEnd then return []
      else
        let keyed ← accept .key
        if keyed then
          let key ← valueUnless fuel [.value, .comma, .flowSequenceEnd] false false
          let member ← flowValue fuel [.flowSequenceEnd]
          return .obj [(keyOf key, member)] .closed :: (← flowItems fuel false)
        else
          let item ← value fuel false false
          return item :: (← flowItems fuel false)

/-- Reads members in brackets. -/
def flowMembers : Nat → (first : Bool) → Parse (List (Literal × Document))
  | 0, _ => fail
  | fuel + 1, first => do
    if ← accept .flowMappingEnd then return []
    else
      if !first then expect .comma
      if ← accept .flowMappingEnd then return []
      else
        let keyed ← accept .key
        let key ←
          if keyed then valueUnless fuel [.value, .comma, .flowMappingEnd] false false
          else value fuel false false
        let member ← if keyed then flowValue fuel [.flowMappingEnd] else pure absent
        return (keyOf key, member) :: (← flowMembers fuel false)

end

/-! ## Documents -/

/-- Reads directives, given whether there was one for the version and the handles there were so far:
whether there were any more. -/
def directives : Nat → (versioned : Bool) → (declared : List String) → Parse Bool
  | 0, _, _ => fail
  | fuel + 1, versioned, declared => do
    match ← peek with
    | some (.version major minor) =>
      if versioned || major ≠ 1 || !(minor = 1 || minor = 2) then fail
      else
        skip
        let _ ← directives fuel true declared
        return true
    | some (.tagHandle handle start) =>
      if declared.contains handle then fail
      else
        skip
        modify fun r => { r with handles := (handle, start) :: r.handles }
        let _ ← directives fuel versioned (handle :: declared)
        return true
    | _ => return false

/-- Reads what a document holds. -/
def content (fuel : Nat) : Parse Document := do
  match ← peek with
  | none | some (.version ..) | some (.tagHandle ..) | some .documentStart | some .documentEnd =>
    return absent
  | some _ => value fuel true false

/-- Reads the end of a text: nothing but marks that end documents. -/
def ends : List Token → Bool
  | [] => true
  | t :: rest => t = .documentEnd && ends rest

/-- Reads a document up to its end. -/
def body (fuel : Nat) : Parse Document := do
  if ← directives fuel false [] then
    expect .documentStart
    content fuel
  else
    let started ← accept .documentStart
    let next ← peek
    if started then content fuel
    else if next.isNone then return absent
    else value fuel true false

/-- Reads a text of one document. -/
def document (fuel : Nat) : Parse Document := do
  let d ← body fuel
  if ends (← get).tokens then return d else fail

/-- The handles that need no declaration. -/
def standardHandles : List (String × String) := [("!", "!"), ("!!", "tag:yaml.org,2002:")]

/-- The tree of some tokens, if they make one. -/
def ofTokens? (ts : List Token) : Option Document :=
  ((document (4 * ts.length + 8)).run ⟨ts, [], standardHandles⟩).map Prod.fst

end Tree

/-- The tree of a text, if it makes sense and holds no more than one document. -/
def read? (cs : List Char) : Option Document := do Tree.ofTokens? (← Token.ofChars? cs)

end TaskSwarm.Yaml
