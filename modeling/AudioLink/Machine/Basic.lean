import AudioLink.Policy
import AudioLink.Settings
import AudioLink.Machine.Snapshot
import AudioLink.Stack
import AudioLink.Timers

/-!
# The link machine

The machine keeps at most so many devices linked as its capacity says, and works on one
operation at a time in each of three roles: the device it is linking to, the device
that is linking to it, and the member it is parting from. Requests of the host that
come while any of these is held wait in a queue.

What the machine is about is never stored; it is read off the roles.
-/

namespace AudioLink

/-- How far the link that the machine is bringing up is. -/
inductive Stage where
  /-- A member has to go first. -/
  | awaitingEviction (victim : Address)
  /-- The stack has accepted the request. -/
  | requested
deriving DecidableEq, Repr

/-- The device that the machine is linking to. -/
structure Outgoing where
  device : Address
  stage : Stage
deriving DecidableEq, Repr

/-- Who holds which role. -/
structure Roles where
  /-- The linked devices, the one admitted longest ago first. -/
  members : List Address := []
  /-- The member that sound goes to by preference. -/
  primary : Option Address := none
  /-- The device that the machine is linking to. -/
  outgoing : Option Outgoing := none
  /-- The device that is linking to the machine. -/
  incoming : Option Address := none
  /-- The member that the machine is parting from. -/
  leaving : Option Address := none
deriving DecidableEq, Repr

namespace Roles

/-- The device that the machine is linking to, however far it is. -/
def outgoingDevice (r : Roles) : Option Address :=
  r.outgoing.map Outgoing.device

/-- Nothing is in flight. -/
def isStable (r : Roles) : Bool :=
  r.outgoing.isNone && r.incoming.isNone && r.leaving.isNone

/-- The device is a member and stays one. -/
def isSettled (r : Roles) (d : Address) : Bool :=
  d ∈ r.members && r.leaving ≠ some d

/-- A link to the device is being brought up, by the machine or by the device. -/
def isInFlight (r : Roles) (d : Address) : Bool :=
  r.outgoingDevice = some d || r.incoming = some d

/-- The device waits for a member to go before its link is asked for. -/
def awaitsEviction (r : Roles) (d : Address) : Bool :=
  match r.outgoing with
  | some ⟨device, .awaitingEviction _⟩ => device = d
  | _ => false

/-- The places taken: one for each member and for each link being brought up. -/
def reserved (r : Roles) : Nat :=
  r.members.length + r.outgoing.toList.length + r.incoming.toList.length

/-- The member admitted last among those that stay. -/
def newestSettled (r : Roles) : Option Address :=
  (r.members.filter fun d => r.leaving ≠ some d).getLast?

/-- What the machine is about. -/
def activity (r : Roles) : Activity :=
  if r.isStable then
    if r.members.isEmpty then .idle else .connected
  else
    if r.members.any fun d => r.leaving ≠ some d then .admissionPending else .pending

theorem isStable_iff {r : Roles} :
    r.isStable = true ↔ r.outgoing = none ∧ r.incoming = none ∧ r.leaving = none := by
  simp [isStable, and_assoc]

theorem isStable_activity (r : Roles) : r.activity.isStable = r.isStable := by
  unfold activity
  cases h : r.isStable
  · simp only [Bool.false_eq_true, if_false]
    split <;> rfl
  · simp only [if_true]
    split <;> rfl

end Roles

/-- What reaches the machine, one at a time. -/
inductive Message where
  /-- The host asks for a link to be brought up or taken down. -/
  | request (r : Request)
  /-- The stack reports something. -/
  | event (e : StackEvent)
  /-- The timer of a device has expired, in the given generation. -/
  | timeout (d : Address) (generation : Nat)
  /-- The machine has to end. -/
  | shutdown
deriving DecidableEq, Repr

/-- The machine: its roles, the settings it was made with, what it knows of the sound to its
devices, and what is still to come, which are the requests that wait and the armed timers. -/
structure Machine extends Roles where
  /-- How many devices may be linked at once. -/
  capacity : Nat
  /-- How long an operation may stay unconfirmed. -/
  timeout : Duration
  policy : Policy
  playing : AddressSet := ∅
  formats : AddressMap StreamFormat := ∅
  /-- The requests that wait for the machine to become stable, the oldest first. -/
  deferred : List Request := []
  timers : Timers := {}
  stopped : Bool := false
deriving DecidableEq

namespace Machine

/-- A machine that has not begun. -/
def ofSettings (s : Settings) : Machine where
  capacity := s.capacity.toNat
  timeout := s.timeout
  policy := ⟨s.quiet⟩

/-- A place is left. -/
def hasRoom (m : Machine) : Bool :=
  m.reserved < m.capacity

/-- What the machine shows of itself. The queue and the timers are its own affair. -/
def snapshot (m : Machine) : Snapshot where
  activity := m.activity
  members := m.members
  primary := m.primary
  outgoing := m.outgoingDevice
  incoming := m.incoming
  leaving := m.leaving
  playing := m.playing
  formats := m.formats

end Machine

end AudioLink
