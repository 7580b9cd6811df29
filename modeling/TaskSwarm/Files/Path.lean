/-
Paths.

A path is a text with slashes. Repeated slashes count once, and a dot counts
only at the very start, where it says that the path is relative.
-/
set_option autoImplicit false

namespace TaskSwarm.Path

/-- One step of a path. -/
inductive Step
  | root | here | up | name (s : String)
  deriving DecidableEq, Repr

/-- The texts between slashes. -/
def pieces (path : String) : List String :=
  (path.toList.splitOn '/').map String.ofList

/-- The step a piece stands for, if it stands for one after the first place. -/
def step? (piece : String) : Option Step :=
  if piece = "" || piece = "." then none
  else if piece = ".." then some .up
  else some (.name piece)

/-- Whether a path starts at the root. -/
def isAbsolute (path : String) : Bool := path.toList.head? = some '/'

/-- The steps of a path. -/
def steps (path : String) : List Step :=
  let named := (pieces path).filterMap step?
  if isAbsolute path then .root :: named
  else if (pieces path).head? = some "." then .here :: named
  else named

/-- Whether a path is one ordinary name and nothing else. -/
def isOneName (path : String) : Bool :=
  match steps path with
  | [.name _] => true
  | _ => false

/-- The ordinary name a path ends with. -/
def fileName? (path : String) : Option String :=
  match (steps path).getLast? with
  | some (.name s) => some s
  | _ => none

/-- A path seen from a directory. -/
def join (directory path : String) : String :=
  if isAbsolute path || directory.isEmpty then path
  else if directory.toList.getLast? = some '/' then directory ++ path
  else s!"{directory}/{path}"

/-- The text of some steps. -/
def ofSteps : List Step → String
  | [] => ""
  | .root :: rest => "/" ++ text rest
  | steps => text steps
where
  /-- The words of steps with slashes between them. -/
  text (steps : List Step) : String := String.intercalate "/" (steps.map word)
  /-- The word of a step. -/
  word : Step → String
    | .root => ""
    | .here => "."
    | .up => ".."
    | .name s => s

end TaskSwarm.Path
