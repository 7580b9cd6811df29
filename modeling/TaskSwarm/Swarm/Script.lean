/-
Scripted peers.

A scripted peer answers the requests on each protocol with the replies it was
given, one after the other; the last one is used again and again. It keeps what
it was asked.
-/
import TaskSwarm.SortedMap
import TaskSwarm.Task.Identifier

set_option autoImplicit false

namespace TaskSwarm

/-- What a scripted peer does with a request. -/
structure ScriptedReply where
  /-- Milliseconds before it answers. -/
  delay : Nat
  /-- What it writes before it closes the stream; nothing if it keeps the stream open. -/
  bytes : Option ByteArray

/-- A request that a scripted peer has seen. -/
structure SeenRequest where
  sender : PeerId
  protocol : String
  bytes : ByteArray

/-- A scripted peer. -/
structure Script where
  replies : SortedMap (List ScriptedReply)
  seen : List SeenRequest

namespace Script

/-- The replies left after one more request. -/
def next : List ScriptedReply → ScriptedReply × List ScriptedReply
  | [] => (⟨0, some .empty⟩, [])
  | [last] => (last, [last])
  | r :: rest => (r, rest)

/-- Takes a request in: the script after it, and the reply. -/
def receive (s : Script) (request : SeenRequest) : Script × ScriptedReply :=
  let (reply, left) := next ((s.replies.get? request.protocol).getD [])
  (⟨s.replies.insert request.protocol left, s.seen ++ [request]⟩, reply)

/-- The script without its replies on some protocols. -/
def without (s : Script) (protocols : List String) : Script :=
  { s with replies := protocols.foldl SortedMap.erase s.replies }

/-- The script on top of an older one, which answers what the new one does not. -/
def atop (s older : Script) : Script :=
  { older with replies := s.replies.entries.foldl (fun m e => m.insert e.1 e.2) older.replies }

/-- The protocols a scripted peer answers. -/
def protocols (s : Script) : List String := s.replies.keys

end Script

end TaskSwarm
