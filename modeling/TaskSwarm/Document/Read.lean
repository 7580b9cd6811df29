/-
Walking through a document.

The functions here meet the faults of a tree in the order of the text, which is
the order a reader of the text itself would meet them in. `skip` passes over a
value nobody asked for and is the more lenient: it does not mind numbers out of
range, halves of pairs or depth. `toJson` takes everything in.
-/
import TaskSwarm.Document.Error
import TaskSwarm.Json.Scanner

set_option autoImplicit false

namespace TaskSwarm

/-- The source as seen one level further in. -/
def Source.enter : Source → Except DecodeError Source
  | .text levels => if levels ≤ 1 then .error (.malformed .tooDeep) else .ok (.text (levels - 1))
  | s => .ok s

/-- The words of a configuration file for no value. -/
def isNullWord (text : String) : Bool :=
  text = "null" || text = "Null" || text = "NULL" || text = "~"

namespace Document

/-! ## Ends of lists -/

/-- The end of an array of which every item was read. -/
def endItems : Closing → Except DecodeError Unit
  | .closed => .ok ()
  | .commaClosed => .error (.malformed .trailingComma)
  | .commaEnded => .error (.malformed .endOfValue)
  | .ended => .error (.malformed .endOfList)
  | .junk | .notName => .error (.malformed .expectedListSeparator)

/-- The end of an object of which every member was read. -/
def endMembers : Closing → Except DecodeError Unit
  | .closed => .ok ()
  | .commaClosed => .error (.malformed .trailingComma)
  | .commaEnded => .error (.malformed .endOfValue)
  | .ended => .error (.malformed .endOfObject)
  | .junk => .error (.malformed .expectedObjectSeparator)
  | .notName => .error (.malformed .keyNotString)

/-- The end of an array that is passed over. -/
def endSkippedItems : Closing → Except DecodeError Unit
  | .closed => .ok ()
  | .commaClosed => .error (.malformed .expectedValue)
  | .commaEnded => .error (.malformed .endOfValue)
  | .ended => .error (.malformed .endOfList)
  | .junk | .notName => .error (.malformed .expectedListSeparator)

/-- The end of an object that is passed over. -/
def endSkippedMembers : Closing → Except DecodeError Unit
  | .closed => .ok ()
  | .commaClosed | .notName => .error (.malformed .keyNotString)
  | .commaEnded | .ended => .error (.malformed .endOfObject)
  | .junk => .error (.malformed .expectedObjectSeparator)

/-- What stands after the last item that is read of an array: `left` items and then its end. -/
def endRecord (source : Source) (length taken left : Nat) (closing : Closing) :
    Except DecodeError Unit :=
  match source with
  | .text _ =>
    match left, closing with
    | 0, .closed => .ok ()
    | 0, .commaClosed => .error (.malformed .trailingComma)
    | 0, .ended => .error (.malformed .endOfList)
    | _, _ => .error (.malformed .trailingCharacters)
  | .held =>
    if left = 0 then .ok ()
    else
      let items := if taken = 1 then "1 element" else s!"{taken} elements"
      .error (.wrongLength length (items ++ " in sequence"))
  | _ => if left = 0 then .ok () else .error (.wrongLength length "fewer elements in array")

/-! ## Passing over a value -/

/-- A fault met while passing over. -/
def skipFault : Option Malformed → Except DecodeError Unit
  | none => .ok ()
  | some e => .error (.malformed e)

mutual

/-- Passes over a value. -/
def skip : Document → Except DecodeError Unit
  | .str l => skipFault l.broken
  | .arr items closing => do skipItems items; endSkippedItems closing
  | .obj members closing => do skipMembers members; endSkippedMembers closing
  | .garbled _ skipped => skipFault skipped
  | .missing cause => .error (.malformed cause)
  | _ => .ok ()

/-- Passes over items. -/
def skipItems : List Document → Except DecodeError Unit
  | [] => .ok ()
  | x :: xs => do skip x; skipItems xs

/-- Passes over members. -/
def skipMembers : List (Literal × Document) → Except DecodeError Unit
  | [] => .ok ()
  | (k, v) :: ms => do skipFault k.broken; skip v; skipMembers ms

end

/-! ## Taking a value in -/

/-- The text of a string, faults included. -/
def literal (l : Literal) : Except DecodeError String :=
  match l.value with
  | .ok s => .ok s
  | .error e => .error (.malformed e)

mutual

/-- The value of a tree. -/
def toJson (source : Source) : Document → Except DecodeError Json
  | .null => .ok .null
  | .bool b => .ok (.bool b)
  | .num n => .ok (.num n)
  | .str l => (literal l).map .str
  | .scalar text plain _ => .ok (if plain && (text.isEmpty || isNullWord text) then .null else .str text)
  | .arr items closing => do
    let inner ← source.enter
    let items ← toItems inner items
    endItems closing
    return .arr items
  | .obj members closing => do
    let inner ← source.enter
    let members ← toMembers inner members
    endMembers closing
    return .object members
  | .garbled read _ => .error (.malformed read)
  | .missing cause => .error (.malformed cause)

/-- The values of items. -/
def toItems (source : Source) : List Document → Except DecodeError (List Json)
  | [] => .ok []
  | x :: xs => do
    let x ← toJson source x
    let xs ← toItems source xs
    return x :: xs

/-- The values of members. -/
def toMembers (source : Source) : List (Literal × Document) → Except DecodeError (List (String × Json))
  | [] => .ok []
  | (k, v) :: ms => do
    let k ← literal k
    let v ← toJson source v
    let ms ← toMembers source ms
    return (k, v) :: ms

end

/-- The fault of a tree that is not what `expected` says. -/
def mismatch (expected : String) : Document → DecodeError
  | .null => .wrongType .null expected
  | .bool b => .wrongType (.bool b) expected
  | .num (.int n) => .wrongType (.int n) expected
  | .num (.real x) => .wrongType (.real x) expected
  | .str l =>
    match l.value with
    | .ok s => .wrongType (.str s) expected
    | .error e => .malformed e
  | .scalar text _ _ => .wrongType (.str text) expected
  | .arr _ _ => .wrongType .seq expected
  | .obj _ _ => .wrongType .map expected
  | .garbled read _ => .malformed read
  | .missing cause => .malformed cause

end Document

end TaskSwarm
