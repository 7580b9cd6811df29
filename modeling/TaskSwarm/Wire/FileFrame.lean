/-
File frames.

A file is sent as its name, a NUL and its bytes up to the end of the stream.
The name may say where the file belongs: `splitName` takes `id/name` apart and
refuses whatever could lead out of the directory of that id.
-/
import TaskSwarm.Wire.Line
import TaskSwarm.Files.Path

set_option autoImplicit false

namespace TaskSwarm

/-- A file on its way. -/
structure FileFrame where
  name : String
  body : ByteArray

namespace FileFrame

/-- The bytes of a frame. -/
def write (frame : FileFrame) : Outcome ByteArray :=
  if frame.name.isEmpty || frame.name.toList.contains '\x00' then
    .error (.protocol (.unsendableName frame.name))
  else .ok (frame.name.toUTF8.push 0 ++ frame.body)

/-- Reads a frame, given all there is in a stream. -/
def read (bytes : ByteArray) : Outcome FileFrame :=
  if Wire.maxMessageSize < bytes.size then
    .error (.protocol (.frameTooLarge (Wire.maxMessageSize + 1)))
  else
    match bytes.findIdx? (· = 0) with
    | none => .error (.protocol .noSeparator)
    | some nul =>
      match Text.decode (bytes.extract 0 nul) with
      | .error _ => .error (.protocol .nameNotText)
      | .ok name => .ok ⟨name, bytes.extract (nul + 1) bytes.size⟩

/-- The id of a proposal and the name of a file in its directory. -/
def splitName (name : String) : Outcome (String × String) :=
  match name.toList.span (· ≠ '/') with
  | (_, []) => .error (.protocol (.unsafeName name))
  | (id, _ :: file) =>
    let id := String.ofList id
    let file := String.ofList file
    if Identifier.isValid id && Path.isOneName file then .ok (id, file)
    else .error (.protocol (.unsafeName name))

/-- The name under which a file of a proposal is sent. -/
def joinName (id file : String) : String := s!"{id}/{file}"

end FileFrame

end TaskSwarm
