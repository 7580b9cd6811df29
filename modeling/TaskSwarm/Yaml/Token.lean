/-
The tokens of a configuration text.

Most tokens stand for a mark of the text. Collections without brackets begin
and end where lines begin to stand further in or out, and have tokens that no
mark stands for.
-/

set_option autoImplicit false

namespace TaskSwarm.Yaml

/-- A token. -/
inductive Token
  /-- The version of the format a document asks for. -/
  | version (major minor : Nat)
  /-- A handle for the tags of a document, and what it stands for. -/
  | tagHandle (handle meaning : String)
  | documentStart
  | documentEnd
  /-- A sequence without brackets. -/
  | blockSequence
  /-- A mapping without brackets. -/
  | blockMapping
  /-- The end of a collection without brackets. -/
  | blockEnd
  | flowSequence
  | flowSequenceEnd
  | flowMapping
  | flowMappingEnd
  /-- A dash before an item. -/
  | entry
  /-- A comma. -/
  | comma
  | key
  | value
  | alias (name : String)
  | anchor (name : String)
  /-- A tag by its handle, which has to be declared unless it is empty, and the rest of it. -/
  | tag (handle rest : String)
  /-- A scalar, and whether it stands without quotation marks. -/
  | scalar (text : String) (plain : Bool)
  deriving DecidableEq, Repr

end TaskSwarm.Yaml
