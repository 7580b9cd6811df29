/-
Where the peers of a node are.

A node that calls its peers over a network of machines knows them by a list of
addresses, which does not change while it runs. A peer lives as long as its
address can be connected to.
-/
import TaskSwarm.Node.Program
import TaskSwarm.Wire.Address

set_option autoImplicit false

namespace TaskSwarm

/-- A node's list of addresses. -/
structure Directory where
  /-- The node itself. -/
  own : PeerId
  addresses : SortedMap SocketAddress

namespace Directory

/-- The peers a node knows, in order; it may be on its own list. -/
def knownPeers (d : Directory) : List PeerId := d.addresses.keys.filter (· ≠ d.own)

/-- Why a peer cannot be called, given why its address cannot be connected to. -/
def dialFault? (d : Directory) (refusal? : SocketAddress → Option IoFault) (peer : PeerId) :
    Option CallFault :=
  match d.addresses.get? peer with
  | some address => (refusal? address).map .refused
  | none => some .unlisted

/-- The peers that can be called. -/
def livePeers (d : Directory) (refusal? : SocketAddress → Option IoFault) : List PeerId :=
  d.knownPeers.filter fun peer => (d.dialFault? refusal? peer).isNone

end Directory

end TaskSwarm
