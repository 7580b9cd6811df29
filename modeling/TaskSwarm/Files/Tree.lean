/-
A tree of files.

The directory a node runs in, as a map from paths to what is there. Paths are
walked from directory to directory, so that `a/../b` needs a directory `a`. What
lies outside, above the directory or at the root, is taken to be empty.
-/
import TaskSwarm.Files.Fault
import TaskSwarm.Files.Path
import TaskSwarm.SortedMap

set_option autoImplicit false

namespace TaskSwarm

/-- What stands under a name. -/
inductive FileEntry
  | file (bytes : ByteArray)
  | directory

/-- The files below a directory, by their names from there. -/
structure Files where
  entries : SortedMap FileEntry

namespace Files

/-- No files. -/
def empty : Files := ⟨.empty⟩

instance : Inhabited Files := ⟨empty⟩

/-! ## Walking -/

/-- A place a path may lead to. -/
inductive Place
  /-- Below the directory, by the names on the way. -/
  | inside (names : List String)
  /-- The root of everything. -/
  | root
  /-- Elsewhere. -/
  | outside
  deriving DecidableEq, Repr

/-- The key of a place below the directory. -/
def key (names : List String) : String := String.intercalate "/" names

/-- What stands at a place. -/
def at? (fs : Files) : Place → Option FileEntry
  | .inside [] => some .directory
  | .inside names => fs.entries.get? (key names)
  | .root => some .directory
  | .outside => none

/-- The longest name the system takes, in bytes. -/
def maxName : Nat := 255

/-- The longest path the system takes, in bytes. -/
def maxPath : Nat := 4095

/-- One piece further from a directory. -/
def enter (place : Place) (piece : String) : Except IoFault Place :=
  if maxName < piece.utf8ByteSize then .error .nameTooLong
  else if piece = "" || piece = "." then .ok place
  else
    match place with
    | .inside names =>
      if piece = ".." then .ok (if names.isEmpty then .outside else .inside names.dropLast)
      else .ok (.inside (names ++ [piece]))
    | .root => .ok (if piece = ".." then .root else .outside)
    | .outside => .ok .outside

/-- Follows pieces; every place but the last has to be a directory. -/
def walk (fs : Files) (place : Place) : List String → Except IoFault Place
  | [] => .ok place
  | piece :: rest =>
    match fs.at? place with
    | none => .error .notFound
    | some (.file _) => .error .notDirectory
    | some .directory => do
      let next ← enter place piece
      fs.walk next rest

/-- Where a path leads. -/
def resolve (fs : Files) (path : String) : Except IoFault Place :=
  if path.toList.contains '\x00' then .error .nulInPath
  else if path.isEmpty then .error .notFound
  else if maxPath < path.utf8ByteSize then .error .nameTooLong
  else fs.walk (if Path.isAbsolute path then .root else .inside []) (Path.pieces path)

/-- What a path leads to. -/
def find (fs : Files) (path : String) : Except IoFault (Place × FileEntry) := do
  let place ← fs.resolve path
  match fs.at? place with
  | some entry => .ok (place, entry)
  | none => .error .notFound

/-- Whether a path leads to anything. -/
def contains (fs : Files) (path : String) : Bool :=
  match fs.find path with
  | .ok _ => true
  | .error _ => false

/-- Whether a path leads to a directory. -/
def isDirectory (fs : Files) (path : String) : Bool :=
  match fs.find path with
  | .ok (_, .directory) => true
  | _ => false

/-! ## Files -/

/-- The bytes of a file. -/
def read (fs : Files) (path : String) : Except IoFault ByteArray :=
  match fs.find path with
  | .ok (_, .file bytes) => .ok bytes
  | .ok (_, .directory) => .error .isDirectory
  | .error fault => .error fault

/-- The text of a file. -/
def readText (fs : Files) (path : String) : Except IoFault String := do
  let bytes ← fs.read path
  match Text.decode bytes with
  | .ok text => .ok text
  | .error _ => .error .notTextFile

/-- Where a path leads to a file or to a place where one may be made, with the bytes that are there. -/
def forWriting (fs : Files) (path : String) : Except IoFault (List String × ByteArray) := do
  let place ← fs.resolve path
  match place, fs.at? place with
  | .inside names, some (.file bytes) => .ok (names, bytes)
  | .inside names, none => .ok (names, .empty)
  | _, some _ => .error .isDirectory
  | _, none => .error .notFound

/-- Puts something under some names. -/
def insert (fs : Files) (names : List String) (entry : FileEntry) : Files :=
  ⟨fs.entries.insert (key names) entry⟩

/-- Gives a file new bytes, making the file if there is none. -/
def write (fs : Files) (path : String) (bytes : ByteArray) : Except IoFault Files := do
  let (names, _) ← fs.forWriting path
  return fs.insert names (.file bytes)

/-- Adds bytes to the end of a file, making the file if there is none. -/
def append (fs : Files) (path : String) (bytes : ByteArray) : Except IoFault Files := do
  let (names, before) ← fs.forWriting path
  return fs.insert names (.file (before ++ bytes))

/-- Copies a file. -/
def copy (fs : Files) (origin target : String) : Except IoFault Files := do
  match ← fs.find origin with
  | (_, .file bytes) => fs.write target bytes
  | (_, .directory) => .error (.other "the source path is neither a regular file nor a symlink to a regular file")

/-! ## Directories -/

/-- Makes a directory in one that exists. -/
def makeDirectory (fs : Files) (path : String) : Except IoFault Files := do
  let place ← fs.resolve path
  match place, fs.at? place with
  | _, some _ => .error .alreadyExists
  | .inside names, none => .ok (fs.insert names .directory)
  | _, none => .error .notFound

/-- Makes the directory with these steps, given in reverse, and those it lies in. -/
def makeSteps (fs : Files) : List Path.Step → Except IoFault Files
  | [] => .ok fs
  | last :: before =>
    let path := Path.ofSteps (last :: before).reverse
    match fs.makeDirectory path with
    | .ok made => .ok made
    | .error .notFound => do
      let fs ← fs.makeSteps before
      match fs.makeDirectory path with
      | .ok made => .ok made
      | .error fault => if fs.isDirectory path then .ok fs else .error fault
    | .error fault => if fs.isDirectory path then .ok fs else .error fault

/-- Makes a directory and those it lies in, as far as they are missing. -/
def makeDirectories (fs : Files) (path : String) : Except IoFault Files :=
  if path.toList.contains '\x00' then .error .nulInPath
  else fs.makeSteps (Path.steps path).reverse

/-- Makes a file with its directories. -/
def store (fs : Files) (path : String) (bytes : ByteArray) : Except IoFault Files := do
  let steps := Path.steps path
  let fs ← fs.makeSteps steps.reverse.tail
  fs.write path bytes

/-! ## All of them -/

/-- All files with their paths. -/
def list (fs : Files) : List (String × ByteArray) :=
  fs.entries.entries.filterMap fun
    | (path, .file bytes) => some (path, bytes)
    | (_, .directory) => none

end Files

end TaskSwarm
