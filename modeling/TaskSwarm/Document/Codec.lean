/-
Reading and writing records.

A `Codec α` holds both directions: the value an `α` is written as, and how a
tree is read back. Records are lists of named fields (`Fields`), each with its
own codec and with what it takes when it is left out, so that reading, writing
and the order of complaints are settled once for every record there is.

A record is read from an object or, field by field, from an array. Fields are
read where they stand; a field met twice is refused before its second value is
looked at, names nobody knows are passed over, and what is missing is noticed
last, in the order of declaration.
-/
import TaskSwarm.Document.Read
import TaskSwarm.Document.Scalar

set_option autoImplicit false

namespace TaskSwarm

/-- How values of a type are written and read. -/
structure Codec (α : Type) where
  encode : α → Json
  decode : Source → Document → Except DecodeError α

namespace Codec

/-- A codec for a type whose values are another type's values in other clothes. -/
def imap {α β : Type} (c : Codec α) (forth : α → β) (back : β → α) : Codec β :=
  ⟨fun b => c.encode (back b), fun s d => (c.decode s d).map forth⟩

/-- Reads a value in memory. -/
def ofJson {α : Type} (c : Codec α) (j : Json) : Except DecodeError α :=
  c.decode .value (.ofJson j)

/-- Reads a JSON text, which holds one value and blanks. -/
def ofChars {α : Type} (c : Codec α) (cs : List Char) : Except DecodeError α := do
  let (tree, rest) := Json.scan cs
  let a ← c.decode (.text Source.maxLevels) tree
  if (Json.skipSpace rest).isEmpty then return a
  else .error (.malformed .trailingCharacters)

/-! ## Scalars -/

/-- Text, under the name that complaints use for it. -/
def textAs (expected : String) : Codec String where
  encode := .str
  decode
    | _, .str l => Document.literal l
    | _, .scalar text _ _ => .ok text
    | _, d => .error (d.mismatch expected)

/-- Text. -/
def string : Codec String := textAs "a string"

/-- A truth value. -/
def bool : Codec Bool where
  encode := .bool
  decode
    | _, .bool b => .ok b
    | _, d => .error (d.mismatch "a boolean")

/-- Whole numbers from zero up to below `bound`, under the name that complaints use for them. -/
def unsigned (bound : Nat) (expected : String) : Codec Nat where
  encode n := .nat n
  decode
    | _, .num (.int n) =>
      if 0 ≤ n ∧ n < bound then .ok n.toNat else .error (.wrongValue (.int n) expected)
    | _, .scalar text true _ =>
      match Scalar.readNat? text with
      | some n => if n < bound then .ok n else .error (.wrongValue (.int n) expected)
      | none => .error (.wrongType (.str text) expected)
    | _, d => .error (d.mismatch expected)

/-- Counts of 32 bits. -/
def nat32 : Codec Nat := unsigned 0x100000000 "u32"

/-- Counts of 64 bits. -/
def nat64 : Codec Nat := unsigned 0x10000000000000000 "u64"

/-- Sizes. -/
def size : Codec Nat := unsigned 0x10000000000000000 "usize"

/-- A signed number of 64 bits, if it is one. -/
def narrow (n : Int) : Except DecodeError Int64 :=
  if -0x8000000000000000 ≤ n ∧ n < 0x8000000000000000 then .ok (Int64.ofInt n)
  else .error (.wrongValue (.int n) "i64")

/-- Points in time, and differences between them. -/
def int64 : Codec Int64 where
  encode n := .int n.toInt
  decode
    | _, .num (.int n) => narrow n
    | _, .scalar text true _ =>
      match Scalar.readInt? text with
      | some n => narrow n
      | none => .error (.wrongType (.str text) "i64")
    | _, d => .error (d.mismatch "i64")

/-- Doubles; a whole number stands for the double nearest to it. -/
def float : Codec Float where
  encode := Json.real
  decode
    | _, .num (.int n) => .ok (Float.ofInt n)
    | _, .num (.real x) => .ok x
    | _, .scalar text true _ =>
      match Scalar.readFloat? text with
      | some x => .ok x
      | none => .error (.wrongType (.str text) "f64")
    | _, d => .error (d.mismatch "f64")

/-- Values nobody looks into. -/
def json : Codec Json where
  encode j := j
  decode s d := d.toJson s

/-! ## Compound values -/

/-- A value that may be missing, which null says too. -/
def option {α : Type} (c : Codec α) : Codec (Option α) where
  encode
    | none => .null
    | some a => c.encode a
  decode
    | _, .null => .ok none
    -- A tag that says null wants a word for null; without a tag such a word is enough.
    | _, .scalar text true (some .null) =>
      if isNullWord text then .ok none else .error (.wrongValue (.str text) "null")
    | s, .scalar text true none =>
      if text.isEmpty || isNullWord text then .ok none else (c.decode s (.scalar text true none)).map some
    | s, d => (c.decode s d).map some

/-- Reads items one after the other. -/
def decodeItems {α : Type} (c : Codec α) (s : Source) : List Document → Except DecodeError (List α)
  | [] => .ok []
  | d :: ds => do
    let a ← c.decode s d
    let rest ← decodeItems c s ds
    return a :: rest

/-- Values of one kind in a row. -/
def list {α : Type} (c : Codec α) : Codec (List α) where
  encode as := .arr (as.map c.encode)
  decode
    | s, .arr items closing => do
      let inner ← s.enter
      let as ← decodeItems c inner items
      Document.endItems closing
      return as
    | _, .scalar "" true _ => .ok []
    | _, d => .error (d.mismatch "a sequence")

/-- Reads members one after the other. -/
def decodeMembers {α : Type} (c : Codec α) (s : Source) (m : SortedMap α) :
    List (Literal × Document) → Except DecodeError (SortedMap α)
  | [] => .ok m
  | (k, d) :: rest => do
    let k ← Document.literal k
    let a ← c.decode s d
    decodeMembers c s (m.insert k a) rest

/-- Values of one kind under names. -/
def map {α : Type} (c : Codec α) : Codec (SortedMap α) where
  encode m := .obj (m.entries.map fun e => (e.1, c.encode e.2))
  decode
    | s, .obj members closing => do
      let inner ← s.enter
      let m ← decodeMembers c inner .empty members
      Document.endMembers closing
      return m
    | _, .scalar "" true _ => .ok .empty
    | _, d => .error (d.mismatch "a map")

/-! ## One of several names -/

/-- Finds the value of a name among those there are. -/
def pick {α : Type} (variants : List (String × α)) (name : String) : Except DecodeError α :=
  match variants.lookup name with
  | some a => .ok a
  | none => .error (.unknownVariant name (variants.map Prod.fst))

/-- Reads the value beside a name, which has to be null. -/
def decodeUnit : Document → Except DecodeError Unit
  | .null => .ok ()
  | d => .error (d.mismatch "unit")

/-- The end of an object with one member, of which that member was read. -/
def endSingle (more : List (Literal × Document)) : Closing → Except DecodeError Unit
  | .closed => if more.isEmpty then .ok () else .error (.malformed .expectedValue)
  | .ended => .error (.malformed (if more.isEmpty then .endOfObject else .expectedValue))
  | _ => .error (.malformed .expectedValue)

/-- A value written as its name. It is also read from an object that has its name for a member. -/
def oneOf {α : Type} [DecidableEq α] (variants : List (String × α)) : Codec α where
  encode a := .str (((variants.find? fun v => v.2 = a).map Prod.fst).getD "")
  decode
    | _, .str l => do pick variants (← Document.literal l)
    | _, .scalar text plain (some (.name s)) => do
      let a ← pick variants s
      if plain && (text.isEmpty || isNullWord text) then return a
      else .error (.wrongType (.str text) "unit")
    | _, .scalar text _ _ => pick variants text
    | .text levels, .obj members closing => do
      let _ ← (Source.text levels).enter
      match members with
      | [] =>
        .error (.malformed (if closing = .ended then .endOfValue else .expectedValue))
      | (k, d) :: more =>
        let a ← pick variants (← Document.literal k)
        decodeUnit d
        endSingle more closing
        return a
    | .configuration, d => .error (d.mismatch "a name")
    | _, .obj members _ =>
      match members with
      | [(k, d)] => do
        let a ← pick variants (← Document.literal k)
        decodeUnit d
        return a
      | _ => .error (.wrongValue .map "map with a single key")
    | .text _, .missing cause => .error (.malformed cause)
    | .text _, _ => .error (.malformed .expectedValue)
    | _, d => .error (d.mismatch "string or map")

end Codec

/-! ## Records -/

/-- A named part of a record. -/
structure RecordField (α : Type) where
  name : String
  /-- Other names under which it is read. -/
  aliases : List String
  codec : Codec α
  /-- The value it takes when an object lacks it. -/
  absent : Option α
  /-- The value it takes when an array ends before it. -/
  short : Option α
  /-- Whether a value is left out when the record is written. -/
  omitted : α → Bool

namespace RecordField

/-- A field that has to be there. -/
def required {α : Type} (name : String) (codec : Codec α) : RecordField α :=
  ⟨name, [], codec, none, none, fun _ => false⟩

/-- A field that takes a value of its own when it is left out. -/
def withDefault {α : Type} (name : String) (codec : Codec α) (default : α) : RecordField α :=
  ⟨name, [], codec, some default, some default, fun _ => false⟩

/-- A value that may be missing from an object, but has its place in an array. -/
def optional {α : Type} (name : String) (codec : Codec α) : RecordField (Option α) :=
  ⟨name, [], codec.option, some none, none, fun _ => false⟩

/-- The field, left out when written if its value is such. -/
def omitting {α : Type} (f : RecordField α) (omitted : α → Bool) : RecordField α :=
  { f with omitted := omitted }

/-- The field, read under another name as well. -/
def alsoNamed {α : Type} (f : RecordField α) (name : String) : RecordField α :=
  { f with aliases := name :: f.aliases }

/-- Whether the field is read under `key`. -/
def answers {α : Type} (f : RecordField α) (key : String) : Bool :=
  key = f.name || f.aliases.contains key

end RecordField

/-- The fields of a record, in the order of declaration, for the product of their types. -/
inductive Fields : Type → Type 1
  | nil : Fields Unit
  | cons {α β : Type} (f : RecordField α) (rest : Fields β) : Fields (α × β)

namespace Fields

/-- What was read of a record so far. -/
def Draft : {β : Type} → Fields β → Type
  | _, .nil => Unit
  | _, @cons α _ _ rest => Option α × rest.Draft

/-- Nothing read. -/
def blank : {β : Type} → (fs : Fields β) → fs.Draft
  | _, .nil => ()
  | _, .cons _ rest => (none, rest.blank)

/-- The number of fields. -/
def count : {β : Type} → Fields β → Nat
  | _, .nil => 0
  | _, .cons _ rest => rest.count + 1

/-- Takes in a member; nothing if no field goes by its name. -/
def put : {β : Type} → (fs : Fields β) → Source → String → Document → fs.Draft →
    Option (Except DecodeError fs.Draft)
  | _, .nil, _, _, _, _ => none
  | _, .cons f rest, s, key, d, draft =>
    if f.answers key then
      match draft.1 with
      | some _ => some (.error (.duplicateField f.name))
      | none => some ((f.codec.decode s d).map fun a => (some a, draft.2))
    else (rest.put s key d draft.2).map fun r => r.map fun more => (draft.1, more)

/-- Reads members one after the other. -/
def readMembers {β : Type} (fs : Fields β) (s : Source) (draft : fs.Draft) :
    List (Literal × Document) → Except DecodeError fs.Draft
  | [] => .ok draft
  | (k, d) :: rest => do
    let key ← Document.literal k
    match fs.put s key d draft with
    | some r => do
      let draft ← r
      readMembers fs s draft rest
    | none =>
      -- A text has to be read past the member; a value in memory need not be looked at.
      match s with
      | .text _ => d.skip
      | _ => .ok ()
      readMembers fs s draft rest

/-- The parts of the record, once nothing more is to come. -/
def finish : {β : Type} → (fs : Fields β) → fs.Draft → Except DecodeError β
  | _, .nil, _ => .ok ()
  | _, .cons f rest, draft =>
    match Option.or draft.1 f.absent with
    | some a => (rest.finish draft.2).map fun b => (a, b)
    | none => .error (.missingField f.name)

/-- Reads the fields from items: the parts, and the items that were left. -/
def readItems (expected : String) (closing : Closing) : {β : Type} → Fields β → Source → Nat →
    List Document → Except DecodeError (β × List Document)
  | _, .nil, _, _, items => .ok ((), items)
  | _, .cons f rest, s, place, items =>
    match items with
    | d :: items => do
      let a ← f.codec.decode s d
      let (b, left) ← readItems expected closing rest s (place + 1) items
      return ((a, b), left)
    | [] => do
      -- A field is missing only if the array ends well; otherwise the array is at fault.
      Document.endItems closing
      match f.short with
      | none => .error (.wrongLength place expected)
      | some a =>
        let (b, left) ← readItems expected closing rest s (place + 1) []
        return ((a, b), left)

/-- The members a record is written as. -/
def members : {β : Type} → Fields β → β → List (String × Json)
  | _, .nil, _ => []
  | _, .cons f rest, (a, b) =>
    if f.omitted a then rest.members b else (f.name, f.codec.encode a) :: rest.members b

/-- What complaints call the record when its length is wrong. -/
def lengthText {β : Type} (fs : Fields β) (name : String) : String :=
  let elements := if fs.count = 1 then "1 element" else s!"{fs.count} elements"
  s!"struct {name} with {elements}"

/-- Reads a record from an object or an array. -/
def decode {β : Type} (fs : Fields β) (name : String) (s : Source) :
    Document → Except DecodeError β
  | .obj ms closing => do
    let inner ← s.enter
    let draft ← fs.readMembers inner fs.blank ms
    Document.endMembers closing
    fs.finish draft
  | .arr items closing => do
    let inner ← s.enter
    let (b, left) ← readItems (fs.lengthText name) closing fs inner 0 items
    Document.endRecord s items.length (items.length - left.length) left.length closing
    return b
  | .scalar "" true _ => fs.finish fs.blank
  | d => .error (d.mismatch s!"struct {name}")

/-- The codec of a record, given by its fields and how it is put together from their values. -/
def codec {α β : Type} (fs : Fields β) (name : String) (make : β → α) (parts : α → β) : Codec α where
  encode a := .obj (fs.members (parts a))
  decode s d := (fs.decode name s d).map make

end Fields

end TaskSwarm
