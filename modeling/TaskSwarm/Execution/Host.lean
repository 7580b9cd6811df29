/-
The commands of a bare host.

`echo` prints what it is given, `true` succeeds and `false` does not. Nothing
else can be started.
-/
import TaskSwarm.Execution.Container

set_option autoImplicit false

namespace TaskSwarm.Host

/-- The directories commands are looked for in. -/
def binaryDirectories : List String := ["/bin", "/usr/bin", "/usr/local/bin"]

/-- The plain name of a command, if it is one of the host's. -/
def command? (binary : String) : Option String :=
  ["echo", "true", "false"].find? fun name =>
    binary = name || binaryDirectories.any fun d => binary = s!"{d}/{name}"

/-- Runs a command. -/
def run (_directory binary : String) (args : List String) : Except IoFault CommandResult :=
  if (binary :: args).any fun a => a.toList.contains '\x00' then
    .error (.other "nul byte found in provided data")
  else
    match command? binary with
    | some "echo" => .ok ⟨0, (String.intercalate " " args ++ "\n").toUTF8, .empty⟩
    | some "true" => .ok ⟨0, .empty, .empty⟩
    | some "false" => .ok ⟨1, .empty, .empty⟩
    | _ => .error .notFound

end TaskSwarm.Host
