import AudioLink.Machine.Turn

/-!
# A stack that follows a script

A stack without a radio. It accepts every request but those it was told to refuse,
keeps a log of the calls it received, and may confirm each request it accepted at once.
-/

namespace AudioLink

/-- A stack that accepts and refuses as it was told. -/
structure ScriptedStack where
  /-- The devices to which it brings no link up. -/
  refusesConnect : AddressSet := ∅
  /-- The devices to which it takes no link down. -/
  refusesDisconnect : AddressSet := ∅
  /-- It confirms the requests that it accepts. -/
  confirms : Bool := false
  /-- The calls received, the oldest first. -/
  log : List StackCall := []
deriving DecidableEq

namespace ScriptedStack

instance : Inhabited ScriptedStack := ⟨{}⟩

/-- The answer to a request. -/
def accepts (s : ScriptedStack) : Request → Bool
  | .connect d => d ∉ s.refusesConnect
  | .disconnect d => d ∉ s.refusesDisconnect

/-- The request is refused from now on. -/
def refuse (s : ScriptedStack) : Request → ScriptedStack
  | .connect d => { s with refusesConnect := s.refusesConnect.insert d }
  | .disconnect d => { s with refusesDisconnect := s.refusesDisconnect.insert d }

/-- No request is refused any more. -/
def acceptAll (s : ScriptedStack) : ScriptedStack :=
  { s with refusesConnect := ∅, refusesDisconnect := ∅ }

/-- What surrounds a machine that talks to this stack. -/
def surroundings (s : ScriptedStack) (facts : Facts) : Surroundings where
  facts := facts
  accepts _ r := s.accepts r

/-- The calls of a turn are added to the log. -/
def record (s : ScriptedStack) (t : Turn) : ScriptedStack :=
  { s with log := s.log ++ t.calls }

def clearLog (s : ScriptedStack) : ScriptedStack :=
  { s with log := [] }

/-- The requests among the calls received. -/
def requests (s : ScriptedStack) : List Request :=
  s.log.filterMap fun
    | .request r => some r
    | .permission .. | .rejected _ => none

def connectRequests (s : ScriptedStack) : List Address :=
  s.requests.filterMap fun
    | .connect d => some d
    | .disconnect _ => none

def disconnectRequests (s : ScriptedStack) : List Address :=
  s.requests.filterMap fun
    | .connect _ => none
    | .disconnect d => some d

/-- The events by which the stack confirms what it accepted in a turn. -/
def confirmations (s : ScriptedStack) (t : Turn) : List StackEvent :=
  if s.confirms then (t.effects.filterMap Effect.accepted?).map Request.confirmation else []

end ScriptedStack

end AudioLink
