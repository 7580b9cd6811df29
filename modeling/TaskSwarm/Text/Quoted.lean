/-
A text between quotation marks, as error messages show names.

Quotation marks, backslashes and the common controls take a backslash, every
other character that would not show takes its number in base sixteen between
braces, and the rest stands for itself.
-/
import TaskSwarm.Text.Shown

set_option autoImplicit false

namespace TaskSwarm.Text

/-- One character inside a quoted text. -/
def quoteChar (c : Char) : List Char :=
  match c with
  | '\x00' => ['\\', '0']
  | '\t' => ['\\', 't']
  | '\n' => ['\\', 'n']
  | '\r' => ['\\', 'r']
  | '"' => ['\\', '"']
  | '\\' => ['\\', '\\']
  | c => if isShown c then [c] else ['\\', 'u', '\x7b'] ++ Nat.toDigits 16 c.toNat ++ ['\x7d']

/-- `s` between quotation marks. -/
def quoted (s : String) : String :=
  String.ofList ('"' :: s.toList.flatMap quoteChar ++ ['"'])

end TaskSwarm.Text
