/-
Connections between machines.

Every call is a connection of its own: a line that says who calls and for what,
then the request, then the answer. The caller reads no further than it has to,
since a peer may leave its end open.
-/
import Std.Async.TCP
import Std.Async.Timer
import TaskSwarm.Live.Machine
import TaskSwarm.Node.Directory
import TaskSwarm.Wire.Hello

set_option autoImplicit false

namespace TaskSwarm.Live

open Std.Async (Async)
open Std.Async.TCP.Socket (Client)

/-! ## Addresses -/

/-- The address as the system takes it. -/
def systemAddress : SocketAddress → Std.Net.SocketAddress
  | .v4 host port => .v4 ⟨⟨#v[host.a, host.b, host.c, host.d]⟩, port⟩
  | .v6 host _ port => .v6 ⟨⟨host⟩, port⟩

/-- The address that the system gives. -/
def addressOf : Std.Net.SocketAddress → SocketAddress
  | .v4 a =>
    let octets := a.addr.octets
    .v4 ⟨octets[0], octets[1], octets[2], octets[3]⟩ a.port
  | .v6 a => .v6 a.addr.segments 0 a.port

/-! ## Waiting -/

/-- Lets some milliseconds pass. -/
def sleep (millis : Nat) : Async Unit := Std.Async.sleep (.ofNat millis)

/-- What comes of some work, unless it takes longer than some milliseconds. -/
def within {α : Type} (millis : Nat) (late : CallFault) (work : Async (Except CallFault α)) :
    Async (Except CallFault α) :=
  Async.race work do
    sleep millis
    return .error late

/-- What comes of some work, with what the system refuses as a fault. -/
def guarded {α : Type} (work : Async α) : Async (Except CallFault α) := do
  try return .ok (← work)
  catch e => return .error (.refused (faultOf e))

/-! ## Reading -/

/-- The next bytes of a connection, if there are any. -/
def nextPiece (c : Client) : Async (Option ByteArray) := c.recv? Wire.pieceSize.toUInt64

/-! ## Calling -/

/-- Connects to a peer. -/
def connect (d : Directory) (timeout : Nat) (peer : PeerId) : Async (Except CallFault Client) :=
  match d.addresses.get? peer with
  | none => return .error .unlisted
  | some address =>
    within timeout .connectTimedOut <| guarded do
      let c ← Client.mk
      c.connect (systemAddress address)
      return c

/-- Makes a call: the bytes of the answer, of which one line may be enough. -/
def call (d : Directory) (timeout : Nat) (late : CallFault) (oneLine : Bool) (request : Call) :
    Async (Except CallFault ByteArray) :=
  within request.timeout late do
    match ← connect d timeout request.peer with
    | .error fault => return .error fault
    | .ok c =>
      guarded do
        c.sendAll #[(Hello.mk d.own request.protocol).write, request.bytes]
        if !oneLine then c.shutdown
        Wire.takeIn (nextPiece c) (Wire.maxMessageSize + 1) oneLine .empty

/-- Why a peer cannot be reached. -/
def probe (d : Directory) (timeout : Nat) (peer : PeerId) : Async (Option CallFault) := do
  match ← connect d timeout peer with
  | .error fault => return some fault
  | .ok _ => return none

/-- The peers that can be reached. -/
def livePeers (d : Directory) (timeout : Nat) : Async (List PeerId) := do
  let probes := d.knownPeers.map fun peer => do
    let fault ← probe d timeout peer
    return (peer, fault)
  let found ← Async.concurrentlyAll probes.toArray
  return found.toList.filterMap fun (peer, fault) => if fault.isNone then some peer else none

/-! ## Answering -/

/-- Reads what a caller wants: who calls, for which protocol, and the bytes of the request. -/
def listenTo (c : Client) (protocols : List String) (isWhole : String → Bool) :
    Async (Option (Hello × ByteArray)) := do
  match ← Hello.listen (nextPiece c) protocols with
  | .error _ | .ok .probe => return none
  | .ok (.call hello rest) =>
    let oneLine := !isWhole hello.protocol
    if oneLine && (rest.findIdx? (· = Wire.newline)).isSome then return some (hello, rest)
    else return some (hello, ← Wire.takeIn (nextPiece c) (Wire.maxMessageSize + 1) oneLine rest)

end TaskSwarm.Live
