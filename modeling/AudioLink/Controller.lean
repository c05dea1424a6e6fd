import AudioLink.Failure
import AudioLink.Publisher

/-!
# The controller

The controller is what the host holds. Requests and events are put into a mailbox and
dealt with in the order in which they came; questions are answered from the snapshot
published last.
-/

namespace AudioLink

/-- What the host holds. -/
structure Controller where
  settings : Settings
  registry : Registry
  publisher : Publisher
  /-- The messages not yet dealt with, the oldest first. -/
  mailbox : List Message := []
  /-- Messages are still taken. -/
  accepting : Bool := true
deriving DecidableEq

namespace Controller

/-- A controller with the given settings, registry and, it may be, a stack to talk to.
The settings are looked at before the stack. -/
def build (settings : Settings) (registry : Registry) (hasStack : Bool) :
    Except Failure Controller :=
  match settings.validate with
  | .error problem => .error (.ofProblem problem)
  | .ok () =>
    if hasStack then .ok { settings, registry, publisher := .ofSettings settings }
    else .error .missingStack

/-! ## Messages -/

/-- A message is put into the mailbox; none is taken any more after the end. -/
def post (message : Message) (c : Controller) : Except Failure Controller :=
  if c.accepting then .ok { c with mailbox := c.mailbox ++ [message] } else .error .notRunning

/-- The host asks for a link. The user's choice against links is respected at once. -/
def connect (d : Address) (c : Controller) : Except Failure Controller :=
  if c.registry.priority d = .off then .error (.refused d)
  else c.post (.request (.connect d))

/-- The host asks for a link to be taken down. Nothing stands against that. -/
def disconnect (d : Address) (c : Controller) : Except Failure Controller :=
  c.post (.request (.disconnect d))

/-- The stack reports something. -/
def report (e : StackEvent) (c : Controller) : Except Failure Controller :=
  c.post (.event e)

/-- The controller ends: no message is taken after the one that ends the machine. Ending
it again changes nothing. -/
def shutDown (c : Controller) : Controller :=
  if c.accepting then { c with mailbox := c.mailbox ++ [.shutdown], accepting := false } else c

/-- The oldest message in the mailbox is dealt with, if there is one. What is left in the
mailbox when the machine ends is lost. -/
def deal? (env : Surroundings) (c : Controller) : Option (Controller × Turn) :=
  match c.mailbox with
  | [] => none
  | message :: rest =>
    let (publisher, turn) := c.publisher.step env message
    some ({ c with publisher, mailbox := if publisher.isRunning then rest else [] }, turn)

/-! ## The feed -/

/-- One more subscriber follows what is published. -/
def subscribe (c : Controller) : Controller :=
  { c with publisher := { c.publisher with feed := c.publisher.feed.subscribe } }

/-- A subscriber reads all that waits for it. -/
def readAll (number : Nat) (c : Controller) : List Notice × Controller :=
  let (notices, feed) := c.publisher.feed.readAll number
  (notices, { c with publisher := { c.publisher with feed } })

/-! ## Questions -/

/-- The snapshot published last. -/
def snapshot (c : Controller) : Snapshot :=
  c.publisher.published

/-- The devices whose link is in one of the states; a bonded device without a link counts
as disconnected. -/
def matching (states : List LinkState) (c : Controller) : List Address :=
  c.snapshot.matchingAmong c.registry.bonded states

end Controller

end AudioLink
