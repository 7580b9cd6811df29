/-
The bus on which a node tells its events.

The bus keeps the newest messages, up to its capacity. A subscriber that falls
further behind is told once how many messages it has missed and goes on with
the oldest one that is kept. Nobody has to listen: a message without subscribers
is lost.
-/
set_option autoImplicit false

namespace TaskSwarm

/-- A bus for messages of one type. -/
structure EventBus (α : Type) where
  capacity : Nat
  /-- The messages that are kept, oldest first. -/
  kept : List α
  /-- How many messages were sent. -/
  sent : Nat
  /-- For each subscriber the number of the message it reads next; none once it has left. -/
  cursors : List (Option Nat)

/-- What a subscriber finds when it asks for a message. -/
inductive Received (α : Type)
  | message (a : α)
  /-- So many messages were missed. -/
  | lagged (missed : Nat)
  | empty
  /-- There is no such subscriber. -/
  | unsubscribed
  deriving DecidableEq, Repr

namespace EventBus

variable {α : Type}

/-- A bus nobody has used yet. -/
def new (capacity : Nat) : EventBus α := ⟨capacity, [], 0, []⟩

/-- A new subscriber, for the messages from now on, and its number. -/
def subscribe (bus : EventBus α) : EventBus α × Nat :=
  ({ bus with cursors := bus.cursors ++ [some bus.sent] }, bus.cursors.length)

/-- A subscriber leaves. -/
def unsubscribe (bus : EventBus α) (n : Nat) : EventBus α :=
  { bus with cursors := bus.cursors.set n none }

/-- The number of subscribers. -/
def subscriberCount (bus : EventBus α) : Nat := (bus.cursors.filter Option.isSome).length

/-- Sends a message to all subscribers. -/
def send (bus : EventBus α) (a : α) : EventBus α :=
  if bus.subscriberCount = 0 then bus
  else
    let kept := bus.kept ++ [a]
    { bus with kept := kept.drop (kept.length - bus.capacity), sent := bus.sent + 1 }

/-- The number of the oldest message that is kept. -/
def oldest (bus : EventBus α) : Nat := bus.sent - bus.kept.length

/-- The next message of a subscriber. -/
def receive (bus : EventBus α) (n : Nat) : EventBus α × Received α :=
  match bus.cursors[n]? with
  | some (some at_) =>
    if at_ < bus.oldest then
      ({ bus with cursors := bus.cursors.set n (some bus.oldest) }, .lagged (bus.oldest - at_))
    else
      match bus.kept[at_ - bus.oldest]? with
      | some a => ({ bus with cursors := bus.cursors.set n (some (at_ + 1)) }, .message a)
      | none => (bus, .empty)
  | _ => (bus, .unsubscribed)

end EventBus

end TaskSwarm
