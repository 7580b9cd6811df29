/-
What can go wrong with files, streams and sockets.
-/
import TaskSwarm.Text.Utf8

set_option autoImplicit false

namespace TaskSwarm

/-- Why the system refused a request. -/
inductive IoFault
  | notFound
  | permissionDenied
  | alreadyExists
  | notDirectory
  | isDirectory
  | nameTooLong
  | networkUnreachable
  | connectionRefused
  | addressInUse
  | addressUnavailable
  /-- A path with a NUL in it. -/
  | nulInPath
  /-- A line that is not UTF-8. -/
  | notText (fault : Text.Utf8Fault)
  /-- A file that is not UTF-8. -/
  | notTextFile
  | other (text : String)
  deriving DecidableEq, Repr

/-- The wording of each cause, with the number the system gives it. -/
def IoFault.message : IoFault → String
  | .notFound => "No such file or directory (os error 2)"
  | .permissionDenied => "Permission denied (os error 13)"
  | .alreadyExists => "File exists (os error 17)"
  | .notDirectory => "Not a directory (os error 20)"
  | .isDirectory => "Is a directory (os error 21)"
  | .nameTooLong => "File name too long (os error 36)"
  | .addressInUse => "Address already in use (os error 98)"
  | .addressUnavailable => "Cannot assign requested address (os error 99)"
  | .networkUnreachable => "Network is unreachable (os error 101)"
  | .connectionRefused => "Connection refused (os error 111)"
  | .nulInPath => "file name contained an unexpected NUL byte"
  | .notText fault => fault.message
  | .notTextFile => "stream did not contain valid UTF-8"
  | .other text => text

/-- The cause with the number that the system gives it. -/
def IoFault.ofNumber? : Nat → Option IoFault
  | 2 => some .notFound
  | 13 => some .permissionDenied
  | 17 => some .alreadyExists
  | 20 => some .notDirectory
  | 21 => some .isDirectory
  | 36 => some .nameTooLong
  | 98 => some .addressInUse
  | 99 => some .addressUnavailable
  | 101 => some .networkUnreachable
  | 111 => some .connectionRefused
  | _ => none

end TaskSwarm
