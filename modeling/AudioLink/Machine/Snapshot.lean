import AudioLink.Address
import AudioLink.Link

/-!
# Snapshots

A snapshot is what the machine shows of itself after a message. All questions of the
host are answered from the last one published, never from the machine at work.
-/

namespace AudioLink

/-- What the machine is about, seen from its roles. -/
inductive Activity where
  /-- Nobody is linked and nothing is in flight. -/
  | idle
  /-- An operation is in flight and nobody is linked for good. -/
  | pending
  /-- Somebody is linked and nothing is in flight. -/
  | connected
  /-- An operation is in flight beside a settled link. -/
  | admissionPending
deriving DecidableEq, Repr

/-- A machine that has not begun is idle. -/
instance : Inhabited Activity := ⟨.idle⟩

/-- A request would be carried out at once. -/
def Activity.isStable : Activity → Bool
  | .idle | .connected => true
  | .pending | .admissionPending => false

/-- The roles and the sound of the machine at one moment. -/
structure Snapshot where
  activity : Activity := .idle
  /-- The linked devices, the one admitted longest ago first. -/
  members : List Address := []
  /-- The member that sound goes to by preference. -/
  primary : Option Address := none
  /-- The device to which a link is being brought up. -/
  outgoing : Option Address := none
  /-- The device that is bringing up a link itself. -/
  incoming : Option Address := none
  /-- The member whose link is being taken down. -/
  leaving : Option Address := none
  playing : AddressSet := ∅
  formats : AddressMap StreamFormat := ∅
deriving DecidableEq

namespace Snapshot

instance : Inhabited Snapshot := ⟨{}⟩

/-- The state of the link to a device, read off its role. A member that is on its way out
counts as going. -/
def linkState (s : Snapshot) (d : Address) : LinkState :=
  if s.leaving = some d then .disconnecting
  else if d ∈ s.members then .connected
  else if s.outgoing = some d ∨ s.incoming = some d then .connecting
  else .disconnected

def isPlaying (s : Snapshot) (d : Address) : Bool :=
  d ∈ s.playing

/-- The playing devices in ascending order. -/
def playingDevices (s : Snapshot) : List Address :=
  s.playing.toList

def isAnyPlaying (s : Snapshot) : Bool :=
  !s.playing.isEmpty

def isMulticast (s : Snapshot) : Bool :=
  1 < s.playing.size

def format? (s : Snapshot) (d : Address) : Option StreamFormat :=
  s.formats[d]?

/-- The list with one device more, unless there is none or it is in the list. -/
def withRole (devices : List Address) : Option Address → List Address
  | none => devices
  | some d => if d ∈ devices then devices else devices ++ [d]

/-- Every device that holds a role, once: the members, then the other roles. -/
def known (s : Snapshot) : List Address :=
  [s.outgoing, s.incoming, s.leaving].foldl withRole s.members

/-- The devices that hold a role and whose link is in one of the states. -/
def matching (s : Snapshot) (states : List LinkState) : List Address :=
  s.known.filter fun d => s.linkState d ∈ states

/-- The devices whose link is in one of the states, where a bonded device that holds no
role counts as disconnected. -/
def matchingAmong (s : Snapshot) (bonded : List Address) (states : List LinkState) :
    List Address :=
  let found := s.matching states
  if .disconnected ∈ states then
    found ++ bonded.filter fun d => d ∉ found ∧ s.linkState d = .disconnected
  else found

end Snapshot

end AudioLink
