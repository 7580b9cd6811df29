/-
Records of several kinds.

The kind is a member of the record itself. It may stand anywhere in it, so the
other members are held back until it is known; they have to make sense as values
all the same. In an array the kind comes first.
-/
import TaskSwarm.Document.Codec

set_option autoImplicit false

namespace TaskSwarm

/-- One kind of record. -/
structure Variant (α : Type) where
  name : String
  /-- Reads a value of this kind from the other members. -/
  decode : Document → Except DecodeError α
  /-- The other members of a value of this kind. -/
  members? : α → Option (List (String × Json))

namespace Variant

variable {α : Type}

/-- A name with its first letter as a capital. -/
def titled (name : String) : String :=
  match name.toList with
  | [] => ""
  | c :: cs => String.ofList (c.toUpper :: cs)

/-- The kind of record with some fields, given by how it is put together and taken apart. -/
def of {β : Type} (family name : String) (fields : Fields β) (make : β → α) (parts? : α → Option β) :
    Variant α where
  name := name
  decode d := (fields.decode s!"variant {family}::{titled name}" .held d).map make
  members? a := (parts? a).map fields.members

/-- Reads the name of a kind. -/
def decodeName (variants : List (Variant α)) : Document → Except DecodeError (Variant α)
  | .str l => do
    let name ← Document.literal l
    match variants.find? fun v => v.name = name with
    | some v => return v
    | none => .error (.unknownVariant name (variants.map Variant.name))
  | d => .error (d.mismatch "variant identifier")

/-- Finds the kind among members; the others are left in their order. -/
def findName (tag : String) (variants : List (Variant α)) (s : Source) :
    Option (Variant α) → List (Literal × Document) →
      Except DecodeError (Option (Variant α) × List (Literal × Document))
  | found, [] => .ok (found, [])
  | found, (k, d) :: rest => do
    let key ← Document.literal k
    if key = tag then
      match found with
      | some _ => .error (.duplicateField tag)
      | none =>
        let v ← decodeName variants d
        findName tag variants s (some v) rest
    else
      -- Held back, but it has to be read to get past it.
      let _ ← d.toJson s
      let (found, others) ← findName tag variants s found rest
      return (found, (k, d) :: others)

/-- The kind that was found. -/
def found (tag : String) : Option (Variant α) → Except DecodeError (Variant α)
  | some v => .ok v
  | none => .error (.missingField tag)

/-- The codec of a family of records, told apart by the member `tag`. -/
def codec (family tag : String) (variants : List (Variant α)) : Codec α where
  encode a := .obj ((variants.findSome? fun v =>
    (v.members? a).map fun ms => (tag, Json.str v.name) :: ms).getD [])
  decode
    | s, .obj members closing => do
      let inner ← s.enter
      let (kind, others) ← findName tag variants inner none members
      Document.endMembers closing
      let kind ← found tag kind
      kind.decode (.obj others .closed)
    | s, .arr (d :: items) closing => do
      let inner ← s.enter
      let kind ← decodeName variants d
      let _ ← Document.toItems inner items
      Document.endItems closing
      kind.decode (.arr items .closed)
    | s, .arr [] closing => do
      let _ ← s.enter
      Document.endItems closing
      .error (.missingField tag)
    | _, d => .error (d.mismatch s!"internally tagged enum {family}")

end Variant

end TaskSwarm
