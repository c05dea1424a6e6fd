import AudioLink.Address
import AudioLink.Link

/-!
# The lower stack

The radio layer below is asked for links and reports what becomes of them. A request
returns at once with whether it was accepted; that it was carried out is reported
later, as an event.
-/

namespace AudioLink

/-- A request for the link to a device to be brought up or taken down. The host makes
such requests of the machine, and the machine of the lower stack. -/
inductive Request where
  | connect (d : Address)
  | disconnect (d : Address)
deriving DecidableEq, Repr

def Request.device : Request → Address
  | .connect d | .disconnect d => d

/-- What the lower stack reports. -/
inductive StackEvent where
  /-- The link to a device has reached a state. -/
  | link (d : Address) (state : LinkState)
  /-- The stream to a device has reached a state. -/
  | stream (d : Address) (state : StreamState)
  /-- The format of the stream to a device was negotiated. -/
  | format (d : Address) (format : StreamFormat)
  /-- The stack asks whether a device may complete its link. -/
  | permission (d : Address)
deriving DecidableEq, Repr

def StackEvent.device : StackEvent → Address
  | .link d _ | .stream d _ | .format d _ | .permission d => d

/-- A call that the lower stack receives. -/
inductive StackCall where
  /-- Bring a link up or take it down. -/
  | request (r : Request)
  /-- The answer to whether a device may complete its link. -/
  | permission (d : Address) (allowed : Bool)
  /-- The link that a device tried to bring up was turned away. -/
  | rejected (d : Address)
deriving DecidableEq, Repr

/-- The event by which the stack reports that it carried a request out. -/
def Request.confirmation : Request → StackEvent
  | .connect d => .link d .connected
  | .disconnect d => .link d .disconnected

end AudioLink
