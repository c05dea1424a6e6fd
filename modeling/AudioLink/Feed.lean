import AudioLink.Notice

/-!
# The feed

Subscribers are told every change that is published after they subscribed, in order.
Each has a queue of its own and reads it at its own pace. A notice that tells of no
change reaches nobody.

While the feed is held, what is published is kept back, and reaches the subscribers
when the feed is released. A subscriber that went away stays listed until the next
notice is delivered, which is when its absence shows.
-/

namespace AudioLink

/-- Somebody who follows the feed. -/
structure Subscriber where
  /-- The notices delivered and not yet read, the oldest first. -/
  queue : List Notice := []
  /-- It has not gone away. -/
  listening : Bool := true
  /-- The feed still counts it. -/
  listed : Bool := true
deriving DecidableEq, Repr

/-- A notice is delivered to a subscriber, or found to have no taker. -/
def Subscriber.receive (n : Notice) (s : Subscriber) : Subscriber :=
  if s.listening then { s with queue := s.queue ++ [n] } else { s with listed := false }

/-- The subscribers, numbered in the order in which they came, and what is held back. -/
structure Feed where
  subscribers : List Subscriber := []
  /-- The notices held back, while the feed is held. -/
  held : Option (List Notice) := none
  /-- Nothing is published any more. -/
  closed : Bool := false
deriving DecidableEq, Repr

namespace Feed

instance : Inhabited Feed := ⟨{}⟩

/-- One more subscriber, who gets the next number. -/
def subscribe (f : Feed) : Feed :=
  { f with subscribers := f.subscribers ++ [{}] }

/-- How many subscribers are listed, until the feed is closed. -/
def count? (f : Feed) : Option Nat :=
  if f.closed then none else some (f.subscribers.countP Subscriber.listed)

/-! ## Publishing -/

/-- The notice reaches everybody who still listens; the others are no longer listed. -/
def deliver (f : Feed) (n : Notice) : Feed :=
  { f with subscribers := f.subscribers.map (·.receive n) }

/-- A notice is published. It is delivered at once, or kept back while the feed is held; one
that tells of no change goes nowhere, and neither does any after the feed has closed. -/
def publish (f : Feed) (n : Notice) : Feed :=
  if f.closed || !n.isChange then f
  else match f.held with
    | some notices => { f with held := some (notices ++ [n]) }
    | none => f.deliver n

/-- What is published from now on is kept back. Holding a feed that is held keeps what it
holds back. -/
def hold (f : Feed) : Feed :=
  { f with held := some (f.held.getD []) }

/-- The notices held back, the oldest first; none while the feed is not held. -/
def heldBack (f : Feed) : List Notice :=
  f.held.getD []

/-- The notices held back are delivered, in the order in which they were published. -/
def release (f : Feed) : Feed :=
  f.heldBack.foldl deliver { f with held := none }

/-- The feed ends. What was delivered can still be read. -/
def close (f : Feed) : Feed :=
  { f with held := none, closed := true }

/-! ## Reading -/

/-- What was delivered to a subscriber and not yet read by it. -/
def queued (f : Feed) (number : Nat) : List Notice :=
  (f.subscribers[number]?.map Subscriber.queue).getD []

/-- A subscriber has this left to read. -/
def setQueue (f : Feed) (number : Nat) (queue : List Notice) : Feed :=
  { f with subscribers := f.subscribers.modify number ({ · with queue }) }

/-- A subscriber reads its next notice, if there is one. -/
def read (f : Feed) (number : Nat) : Option Notice × Feed :=
  ((f.queued number).head?, f.setQueue number (f.queued number).tail)

/-- A subscriber reads all that waits for it. -/
def readAll (f : Feed) (number : Nat) : List Notice × Feed :=
  (f.queued number, f.setQueue number [])

/-- A subscriber goes away, and what it did not read is lost. It stays listed for now. -/
def drop (f : Feed) (number : Nat) : Feed :=
  { f with subscribers := f.subscribers.modify number ({ · with queue := [], listening := false }) }

/-- A subscriber that waits for its next notice waits in vain. -/
def isOver (f : Feed) (number : Nat) : Bool :=
  f.closed && (f.queued number).isEmpty

end Feed

end AudioLink
