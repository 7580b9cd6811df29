/-
A network of peers.

Peers join, go off line and come back, and the links between them are severed
and restored. Two peers are linked if both are on line and nobody has severed
their link; who is linked can call and be called.
-/
import TaskSwarm.Node.Program

set_option autoImplicit false

namespace TaskSwarm

/-- Who is there and who can reach whom. -/
structure Network where
  /-- The protocols each peer answers; every peer that has ever joined is here. -/
  offered : SortedMap (List String)
  online : SortedMap Unit
  /-- The severed links, each with its smaller end first. -/
  severed : List (PeerId × PeerId)

namespace Network

/-- Nobody. -/
def empty : Network := ⟨.empty, .empty, []⟩

instance : Inhabited Network := ⟨empty⟩

/-- The link between two peers. -/
def link (a b : PeerId) : PeerId × PeerId := if a ≤ b then (a, b) else (b, a)

/-- Whether two peers can reach each other. -/
def linked (n : Network) (a b : PeerId) : Bool :=
  a ≠ b && n.online.contains a && n.online.contains b && !n.severed.contains (link a b)

/-- A peer is there, and on line. -/
def join (n : Network) (a : PeerId) : Network :=
  { n with
    offered := n.offered.insert a ((n.offered.get? a).getD [])
    online := n.online.insert a () }

/-- A peer goes on or off line. -/
def setOnline (n : Network) (a : PeerId) (online : Bool) : Network :=
  { n with online := if online then n.online.insert a () else n.online.erase a }

/-- Severs a link. -/
def disconnect (n : Network) (a b : PeerId) : Network :=
  { n with severed := link a b :: n.severed.filter (· ≠ link a b) }

/-- Restores a link. -/
def reconnect (n : Network) (a b : PeerId) : Network :=
  { n with severed := n.severed.filter (· ≠ link a b) }

/-- A peer answers a protocol from now on. -/
def offer (n : Network) (a : PeerId) (protocol : String) : Network :=
  let before := (n.offered.get? a).getD []
  { n with offered := n.offered.insert a (if before.contains protocol then before else before ++ [protocol]) }

/-- Whether a peer answers a protocol. -/
def offers (n : Network) (a : PeerId) (protocol : String) : Bool :=
  ((n.offered.get? a).getD []).contains protocol

/-- Why a call to a peer would come to nothing. -/
def dialFault? (n : Network) (a b : PeerId) (protocol : String) : Option CallFault :=
  if !n.linked a b then some .noConnection
  else if !n.offers b protocol then some (.unsupported protocol)
  else none

/-- The peers that a peer knows of. -/
def knownPeers (n : Network) (a : PeerId) : List PeerId := n.offered.keys.filter (· ≠ a)

/-- The peers that a peer can reach. -/
def livePeers (n : Network) (a : PeerId) : List PeerId := n.offered.keys.filter fun b => n.linked a b

/-- Why a peer cannot connect to another. -/
def connectFault? (n : Network) (a b : PeerId) : Option CallFault :=
  if n.linked a b then none else some .noConnection

end Network

end TaskSwarm
