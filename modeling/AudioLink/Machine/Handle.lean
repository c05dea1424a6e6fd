import AudioLink.Machine.Event
import AudioLink.Machine.Request

/-!
# Handling a message

The machine works on a message to its end, and then on the requests that waited for
it. What was never confirmed is given up when its timer expires. A machine that was
shut down does nothing any more.
-/

namespace AudioLink

namespace Turn

variable (env : Surroundings)

/-- A member's going that was never confirmed is taken for done. -/
def settleLeaving (d : Address) (t : Turn) : Turn :=
  if t.machine.leaving = some d then (t.cancelTimer d).linkDown env d else t

/-- The link that was being brought up was never confirmed. Where it still waits for a
member to go, that member is taken for gone. -/
def giveUpOutgoing (t : Turn) : Turn :=
  match t.machine.outgoing with
  | none => t
  | some ⟨_, .awaitingEviction victim⟩ => t.abandonOutgoing.settleLeaving env victim
  | some ⟨d, .requested⟩ => (t.ask env (.disconnect d)).linkDown env d

/-- What is in flight for a device was never confirmed. -/
def giveUp (d : Address) (t : Turn) : Turn :=
  if t.machine.outgoingDevice = some d then t.giveUpOutgoing env
  else if t.machine.incoming = some d then (t.ask env (.disconnect d)).linkDown env d
  else if t.machine.leaving = some d then t.linkDown env d
  else t

/-- The timer of a device has expired; only its armed generation counts. -/
def expire (d : Address) (generation : Nat) (t : Turn) : Turn :=
  match t.machine.timers.claim? d generation with
  | none => t
  | some timers => (t.change fun m => { m with timers }).giveUp env d

/-- The outgoing link is given up for good, the stack being told where it was asked. -/
def dropOutgoing (t : Turn) : Turn :=
  match t.machine.outgoing with
  | none => t
  | some ⟨device, stage⟩ =>
    let t := t.change fun m => { m with outgoing := none }
    let t := if stage = .requested then t.ask env (.disconnect device) else t
    (t.forgetFormat device).tellLink device .connecting .disconnected

/-- The incoming link is given up for good. -/
def dropIncoming (t : Turn) : Turn :=
  match t.machine.incoming with
  | none => t
  | some d =>
    let t := (t.change fun m => { m with incoming := none }).ask env (.disconnect d)
    (t.forgetFormat d).tellLink d .connecting .disconnected

/-- The machine ends: what is in flight is given up and what waits is forgotten. -/
def shutDown (t : Turn) : Turn :=
  ((t.dropOutgoing env).dropIncoming env).change fun m =>
    { m with timers := m.timers.cancelAll, deferred := [], stopped := true }

/-- The machine works on one message, and not yet on what waited for it. -/
def process (t : Turn) : Message → Turn
  | .request r => t.submit env r
  | .event e => t.report env e
  | .timeout d generation => t.expire env d generation
  | .shutdown => t.shutDown env

end Turn

/-- The machine works on a message and then on the requests that waited for it. -/
def Machine.handle (env : Surroundings) (message : Message) (m : Machine) : Turn :=
  if m.stopped then { machine := m }
  else
    let t := Turn.process env { machine := m } message
    t.replay env t.machine.deferred

end AudioLink
