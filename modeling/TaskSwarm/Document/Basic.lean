/-
Documents as they are read.

What a peer sent, what a configuration file holds and what a value in memory
says are all read through one kind of tree. It differs from a JSON value in
that it may be broken: the place where a text stops making sense is part of
the tree, with its cause, so that a reader that never looks there never
complains, and one that does reports what it met first.

`Document.ofJson` turns a value into a tree without faults, and `Source` tells
the readers where a tree came from, which decides how much they may look at and
how some faults are worded.
-/
import TaskSwarm.Json.Value

set_option autoImplicit false

namespace TaskSwarm

/-- Why a text is not JSON. -/
inductive Malformed
  | endOfValue | endOfList | endOfObject | endOfString
  | expectedValue | expectedIdent | expectedColon
  | expectedListSeparator | expectedObjectSeparator
  | trailingComma | trailingCharacters | keyNotString
  | invalidNumber | numberOutOfRange
  | invalidEscape | loneSurrogate | truncatedSurrogate | controlCharacter
  | tooDeep
  deriving DecidableEq, Repr

/-- The wording of each cause. -/
def Malformed.message : Malformed → String
  | .endOfValue => "EOF while parsing a value"
  | .endOfList => "EOF while parsing a list"
  | .endOfObject => "EOF while parsing an object"
  | .endOfString => "EOF while parsing a string"
  | .expectedValue => "expected value"
  | .expectedIdent => "expected ident"
  | .expectedColon => "expected `:`"
  | .expectedListSeparator => "expected `,` or `]`"
  | .expectedObjectSeparator => "expected `,` or `\x7d`"
  | .trailingComma => "trailing comma"
  | .trailingCharacters => "trailing characters"
  | .keyNotString => "key must be a string"
  | .invalidNumber => "invalid number"
  | .numberOutOfRange => "number out of range"
  | .invalidEscape => "invalid escape"
  | .loneSurrogate => "lone leading surrogate in hex escape"
  | .truncatedSurrogate => "unexpected end of hex escape"
  | .controlCharacter => "control character (\\u0000-\\u001F) found while parsing a string"
  | .tooDeep => "recursion limit exceeded"

/-- A string of a text, with the faults met inside it. -/
structure Literal where
  text : String
  /-- The first half of a surrogate pair that lacks the other, which only matters to who wants the text. -/
  unpaired : Option Malformed
  /-- What ended the string before its closing quotation mark. -/
  broken : Option Malformed
  deriving DecidableEq, Repr

/-- A string without faults. -/
def Literal.plain (s : String) : Literal := ⟨s, none, none⟩

/-- The text of a string, or the first fault in it. -/
def Literal.value (l : Literal) : Except Malformed String :=
  match l.unpaired, l.broken with
  | some e, _ => .error e
  | none, some e => .error e
  | none, none => .ok l.text

/-- How a list of items or members ends. -/
inductive Closing
  /-- By its bracket. -/
  | closed
  /-- By a comma and then its bracket. -/
  | commaClosed
  /-- By a comma and then the end of the text. -/
  | commaEnded
  /-- By the end of the text. -/
  | ended
  /-- At a character that is neither a comma nor the bracket. -/
  | junk
  /-- At a character that starts no name, where a member should follow. -/
  | notName
  deriving DecidableEq, Repr

/-- What a mark in front of a scalar says it is. -/
inductive ScalarTag
  /-- No value. -/
  | null
  /-- One of several names. -/
  | name (s : String)
  /-- Something settings do not distinguish. -/
  | other
  deriving DecidableEq, Repr

/-- A tree as it is read. -/
inductive Document
  | null
  | bool (b : Bool)
  | num (n : Number)
  | str (l : Literal)
  /-- A scalar of a configuration file, whose kind depends on who reads it. -/
  | scalar (text : String) (plain : Bool) (tag : Option ScalarTag)
  | arr (items : List Document) (closing : Closing)
  | obj (members : List (Literal × Document)) (closing : Closing)
  /-- The start of a value that goes wrong; `skipped` is the fault for who passes over it. -/
  | garbled (read : Malformed) (skipped : Option Malformed)
  /-- No value at all. -/
  | missing (cause : Malformed)
  deriving Repr, Inhabited

/-- Where a tree came from. -/
inductive Source
  /-- A text, of which so many more levels may be entered. -/
  | text (levels : Nat)
  /-- A value in memory. -/
  | value
  /-- A value that was held back until the kind of record it belongs to was known. -/
  | held
  /-- A configuration file. -/
  | configuration
  deriving DecidableEq, Repr

/-- How many levels of a text may be entered, the outermost value included. -/
def Source.maxLevels : Nat := 128

namespace Document

mutual

/-- The tree of a value. -/
def ofJson : Json → Document
  | .null => .null
  | .bool b => .bool b
  | .num n => .num n
  | .str s => .str (.plain s)
  | .arr items => .arr (ofItems items) .closed
  | .obj members => .obj (ofMembers members) .closed

/-- The trees of the items of an array. -/
def ofItems : List Json → List Document
  | [] => []
  | x :: xs => ofJson x :: ofItems xs

/-- The trees of the members of an object. -/
def ofMembers : List (String × Json) → List (Literal × Document)
  | [] => []
  | (k, v) :: ms => (.plain k, ofJson v) :: ofMembers ms

end

end Document

/-! ## Faults of reading -/

/-- What was met where something else was wanted. -/
inductive Found
  | null | bool (b : Bool) | int (n : Int) | real (x : Float) | str (s : String) | seq | map
  deriving DecidableEq, Repr

/-- Why a tree is not the record that was wanted. -/
inductive DecodeError
  | malformed (cause : Malformed)
  | wrongType (found : Found) (expected : String)
  | wrongValue (found : Found) (expected : String)
  | wrongLength (length : Nat) (expected : String)
  | unknownVariant (name : String) (variants : List String)
  | missingField (name : String)
  | duplicateField (name : String)
  /-- A text that is not of the form its field demands. -/
  | illFormed (what : String)
  deriving DecidableEq, Repr

end TaskSwarm
