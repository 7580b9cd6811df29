/-
Tasks in containers.

A task runs as `docker run` in a directory of its own below the work directory,
with the files that came in for it. The id of a proposal becomes part of a path,
so it is checked before anything is touched.
-/
import TaskSwarm.Files.Tree
import TaskSwarm.Task.Proposal

set_option autoImplicit false

namespace TaskSwarm

/-- How containers are started. -/
structure ContainerRuntime where
  binary : String
  /-- The parent of the directories of tasks. -/
  workDir : String
  /-- Where files of proposals arrive. -/
  inbox : String
  deriving DecidableEq, Repr

/-- What a command left behind. -/
structure CommandResult where
  code : Nat
  output : ByteArray
  errors : ByteArray

namespace ContainerRuntime

/-- Where the directory of a task is seen from inside its container. -/
def mountPoint : String := "/work"

/-- The directory of a task. -/
def directory (r : ContainerRuntime) (p : Proposal) : Outcome String :=
  if Identifier.isValid p.id then .ok (Path.join r.workDir s!"proposal_{p.id}")
  else .error (.invalidProposal (.escapingId p.id))

/-- The arguments with which a container is started. -/
def arguments (p : Proposal) (directory : String) : List String :=
  let c := p.container
  ["run", "--rm", "-v", s!"{directory}:{mountPoint}", "-w", mountPoint]
    ++ c.env.entries.flatMap (fun e => ["-e", e.1 ++ "=" ++ e.2])
    ++ c.ports.flatMap (fun port => ["-p", port])
    ++ c.volumes.flatMap (fun volume => ["-v", volume])
    ++ [c.image, "sh", "-c", c.command]

/-- Copies files from one directory to another, those that are not there apart, up to the first that fails;
the files after it. -/
def stageFiles (origin target : String) (fs : Files) : List String → Files × Except IoFault Unit
  | [] => (fs, .ok ())
  | path :: paths =>
    match Path.fileName? path with
    | none => stageFiles origin target fs paths
    | some name =>
      if fs.contains (Path.join origin name) then
        match fs.copy (Path.join origin name) (Path.join target name) with
        | .error fault => (fs, .error fault)
        | .ok fs => stageFiles origin target fs paths
      else stageFiles origin target fs paths

/-- What a task came to, given what its command left behind. -/
def result (c : CommandResult) : Outcome Json :=
  if c.code = 0 then
    .ok (.object [("status", .str "success"), ("exitCode", .nat c.code),
      ("stdout", .str (Text.decodeLossy c.output))])
  else
    .error (.execution (s!"Process exited with code {c.code}\nError: " ++ Text.decodeLossy c.errors))

/-- Prepares the directory of a task: the files after it, and the arguments for its container. -/
def prepare (r : ContainerRuntime) (p : Proposal) (fs : Files) : Files × Outcome (String × List String) :=
  match r.directory p with
  | .error e => (fs, .error e)
  | .ok directory =>
    match fs.makeDirectories directory with
    | .error fault => (fs, .error (.io fault))
    | .ok fs =>
      match stageFiles (Path.join r.inbox p.id) directory fs p.container.inputFiles with
      | (fs, .error fault) => (fs, .error (.io fault))
      | (fs, .ok ()) => (fs, .ok (directory, arguments p directory))

/-- Runs a task, given how commands run in a directory. -/
def execute (r : ContainerRuntime) (run : String → String → List String → Except IoFault CommandResult)
    (p : Proposal) (fs : Files) : Files × Outcome Json :=
  match r.prepare p fs with
  | (fs, .error e) => (fs, .error e)
  | (fs, .ok (directory, args)) =>
    match run directory r.binary args with
    | .error fault => (fs, .error (.execution s!"Failed to start {r.binary}: {fault.message}"))
    | .ok c => (fs, result c)

end ContainerRuntime

end TaskSwarm
