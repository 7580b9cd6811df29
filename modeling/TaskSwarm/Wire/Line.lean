/-
One message a line.

A message is written as one line of JSON. A reader takes in no more than
`maxMessageSize` bytes of a line and one; it reads ahead in pieces of
`pieceSize`, and what it has read beyond the line is gone for who reads next.
-/
import TaskSwarm.Json.Printer
import TaskSwarm.Message.Envelope

set_option autoImplicit false

namespace TaskSwarm

namespace Wire

/-- The largest line or file frame. -/
def maxMessageSize : Nat := 16 * 1024 * 1024

/-- How many bytes are taken from a stream at a time. -/
def pieceSize : Nat := 8192

/-- The byte that ends a line. -/
def newline : UInt8 := 10

/-- The bytes of a message. -/
def writeMessage {α : Type} (c : Codec α) (a : α) : ByteArray :=
  ((c.encode a).render ++ "\n").toUTF8

/-- The number of bytes of the first line from `start` on, its end included; all up to `stop` if there is no end. -/
def lineLength (bytes : ByteArray) (start stop : Nat) : Nat :=
  match bytes.findIdx? (· = newline) start with
  | some i => if i < stop then i + 1 - start else stop - start
  | none => stop - start

/-- How many bytes a reader that wants a line of `length` bytes takes from a stream. -/
def taken (available length : Nat) : Nat :=
  min available ((length + pieceSize - 1) / pieceSize * pieceSize)

/-- Reads the bytes of a line as a message. -/
def readLine {α : Type} (c : Codec α) (line : ByteArray) : Outcome α :=
  match Text.decode line with
  | .error fault => .error (.io (.notText fault))
  | .ok text =>
    -- A line has to be text before its length matters.
    if maxMessageSize < line.size then .error (.protocol (.messageTooLarge line.size))
    else
      let content := Text.trim text.toList
      if content.isEmpty then .error (.protocol .noData)
      else (c.ofChars content).mapError .ofDecode

/-- Reads a message from `start` on: the message, and where the next reader would start. -/
def readMessage {α : Type} (c : Codec α) (bytes : ByteArray) (start : Nat) : Outcome α × Nat :=
  let available := min (bytes.size - start) (maxMessageSize + 1)
  let length := lineLength bytes start (start + available)
  (readLine c (bytes.extract start (start + length)), start + taken available length)

/-- Reads one message from the start of a stream. -/
def readFirst {α : Type} (c : Codec α) (bytes : ByteArray) : Outcome α := (readMessage c bytes 0).1

end Wire

end TaskSwarm
