import AudioLink.Feed
import AudioLink.Machine.Handle

/-!
# Publishing

The publisher lets the machine work on one message at a time. It holds the feed during
the turn, publishes the snapshot after it, and only then releases the feed: a listener
that looks at the snapshot when it is told of a change finds the change in it.
-/

namespace AudioLink

/-- A notice delivered, with the snapshot that was published at that moment. -/
structure Delivery where
  notice : Notice
  published : Snapshot
deriving DecidableEq

/-- The machine with what it publishes. -/
structure Publisher where
  machine : Machine
  published : Snapshot := {}
  feed : Feed := {}
  /-- The notices delivered so far, the oldest first. -/
  deliveries : List Delivery := []
deriving DecidableEq

namespace Publisher

/-- A publisher that has not begun. -/
def ofSettings (s : Settings) : Publisher where
  machine := .ofSettings s

/-- The publisher goes on until its machine has ended. -/
def isRunning (p : Publisher) : Bool :=
  !p.machine.stopped

/-- The notices held back are delivered. -/
def release (p : Publisher) : Publisher :=
  { p with
    feed := p.feed.release
    deliveries := p.deliveries ++ p.feed.heldBack.map fun notice => ⟨notice, p.published⟩ }

/-- The machine works on a message, with the feed held. -/
def work (p : Publisher) (t : Turn) : Publisher :=
  { p with machine := t.machine, feed := t.notices.foldl Feed.publish p.feed.hold }

/-- What the machine shows of itself is published. -/
def publish (p : Publisher) : Publisher :=
  { p with published := p.machine.snapshot }

/-- One message is dealt with. -/
def step (env : Surroundings) (message : Message) (p : Publisher) : Publisher × Turn :=
  let t := p.machine.handle env message
  ((p.work t).publish.release, t)

/-- The messages are dealt with in order, each in its surroundings, until the machine
has ended. -/
def run : List (Surroundings × Message) → Publisher → Publisher
  | [], p => p
  | (env, message) :: rest, p =>
    if p.isRunning then run rest (p.step env message).1 else p

end Publisher

end AudioLink
