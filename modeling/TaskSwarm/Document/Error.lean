/-
The wording of what is wrong with a tree.
-/
import TaskSwarm.Decimal.Layout
import TaskSwarm.Document.Basic
import TaskSwarm.Text.Quoted

set_option autoImplicit false

namespace TaskSwarm

/-- The wording of what was met. -/
def Found.message : Found → String
  | .null => "null"
  | .bool b => s!"boolean `{b}`"
  | .int n => s!"integer `{n}`"
  | .real x => "floating point `" ++ Decimal.Layout.message.render x ++ "`"
  | .str s => "string " ++ Text.quoted s
  | .seq => "sequence"
  | .map => "map"

/-- The names that would have been right. -/
def variantNames (names : List String) : String :=
  match names with
  | [] => "there are no variants"
  | [a] => s!"expected `{a}`"
  | [a, b] => s!"expected `{a}` or `{b}`"
  | names => "expected one of " ++ String.intercalate ", " (names.map fun n => s!"`{n}`")

/-- The wording of each fault. -/
def DecodeError.message : DecodeError → String
  | .malformed cause => cause.message
  | .wrongType found expected => "invalid type: " ++ found.message ++ ", expected " ++ expected
  | .wrongValue found expected => "invalid value: " ++ found.message ++ ", expected " ++ expected
  | .wrongLength length expected => s!"invalid length {length}, expected {expected}"
  | .unknownVariant name variants => s!"unknown variant `{name}`, " ++ variantNames variants
  | .missingField name => s!"missing field `{name}`"
  | .duplicateField name => s!"duplicate field `{name}`"
  | .illFormed what => what

end TaskSwarm
