/-
How a connection begins.

A connection to a node starts with a line that says who calls and for which
protocol. What follows belongs to the protocol, byte for byte. A connection that
closes without a line only asked whether somebody is there.
-/
import TaskSwarm.Wire.Intake

set_option autoImplicit false

namespace TaskSwarm

/-- The first line of a connection. -/
structure Hello where
  peer : PeerId
  protocol : String
  deriving DecidableEq, Repr

namespace Hello

/-- How the line is written. -/
def codec : Codec Hello :=
  Fields.codec (.cons (.required "peer" .string) <| .cons (.required "protocol" .string) .nil)
    "Hello" (fun (peer, protocol, ()) => ⟨peer, protocol⟩) (fun h => (h.peer, h.protocol, ()))

/-- The longest such line, in bytes. -/
def maxSize : Nat := 4096

/-- The bytes with which a connection is opened. -/
def write (h : Hello) : ByteArray := Wire.writeMessage codec h

/-- What a connection turned out to be. -/
inductive Opening
  /-- Nothing was sent. -/
  | probe
  /-- A caller, and all that follows the line. -/
  | call (hello : Hello) (rest : ByteArray)

/-- Reads the start of a connection that has brought some bytes. A line that is too long is cut short,
and what was cut off counts as following it. -/
def read (bytes : ByteArray) : Outcome Opening :=
  let stop := min bytes.size maxSize
  let length := Wire.lineLength bytes 0 stop
  if length = 0 then .ok .probe
  else
    match Text.decode (bytes.extract 0 length) with
    | .error fault => .error (.io (.notText fault))
    | .ok text => do
      let hello ← (codec.ofChars (Text.trim text.toList)).mapError .ofDecode
      return .call hello (bytes.extract length bytes.size)

/-- Reads the start of a connection to a node that answers some protocols. -/
def greet (protocols : List String) (bytes : ByteArray) : Outcome Opening := do
  match ← read bytes with
  | .probe => return .probe
  | .call hello rest =>
    if protocols.contains hello.protocol then return .call hello rest
    else throw (.protocol (.notSupported hello.protocol))

/-- Takes in the start of a connection to a node that answers some protocols, and reads it. -/
def listen {m : Type → Type} [Monad m] (next : m (Option ByteArray)) (protocols : List String) :
    m (Outcome Opening) := do
  let start ← Wire.takeIn next maxSize true .empty
  return greet protocols start

end Hello

end TaskSwarm
