/-
Taking in what a connection brings.

A connection brings its bytes in pieces that are cut wherever the network cut
them. A reader asks for one piece after the other until it has enough, and has
then also taken in what the last piece held beyond that. Where the pieces come
from is left open, so that the same reader serves a socket and a list of pieces.
-/
import TaskSwarm.Wire.Line

set_option autoImplicit false

namespace TaskSwarm.Wire

variable {m : Type → Type} [Monad m]

/-- Asks for so many pieces at most, until there are no more, `limit` bytes are there or, if that is
enough, a line has ended. -/
def takePieces (next : m (Option ByteArray)) (limit : Nat) (oneLine : Bool) :
    Nat → ByteArray → m ByteArray
  | 0, before => return before
  | count + 1, before => do
    if limit ≤ before.size then return before
    match ← next with
    | none => return before
    | some piece =>
      let bytes := before ++ piece
      if oneLine && (piece.findIdx? (· = newline)).isSome then return bytes
      else takePieces next limit oneLine count bytes

/-- Reads on until a connection is closed, `limit` bytes are there or, if that is enough, a line has
ended. No piece is without bytes, so `limit` of them are enough. -/
def takeIn (next : m (Option ByteArray)) (limit : Nat) (oneLine : Bool) (before : ByteArray) :
    m ByteArray :=
  takePieces next limit oneLine limit before

end TaskSwarm.Wire
