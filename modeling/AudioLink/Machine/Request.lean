import AudioLink.Machine.Turn

/-!
# Requests of the host

A request is carried out at once by a stable machine, and otherwise waits in the queue.
Once the machine is stable again the waiting requests are carried out in the order in
which they came, until one of them makes it unstable or none is left.

A refused request leaves the machine as it was: listeners see the change begin and be
taken back.
-/

namespace AudioLink.Turn

variable (env : Surroundings)

/-- The stack is asked for a link, a place being left for it. -/
def requestLink (d : Address) (t : Turn) : Turn :=
  let asked := t.ask env (.connect d)
  if t.accepts env (.connect d) then asked.awaitLink d
  else asked.tellLink d .connecting .disconnected

/-- The member admitted longest ago is asked to make room for a device. -/
def evictFor (d : Address) (t : Turn) : Turn :=
  match t.machine.members with
  | [] => t.tellLink d .connecting .disconnected
  | victim :: _ =>
    let asked := t.ask env (.disconnect victim)
    if t.accepts env (.disconnect victim) then
      -- two timers: the victim may never go, and the device may never be linked
      let t := (asked.tellLink victim .connected .disconnecting).stopPlaying victim
      let t := (t.change fun m => { m with leaving := some victim }).startTimer victim
      (t.change fun m => { m with outgoing := some ⟨d, .awaitingEviction victim⟩ }).startTimer d
    else asked.tellLink d .connecting .disconnected

/-- A stable machine brings a link up, making room first where none is left. -/
def bringUp (d : Address) (t : Turn) : Turn :=
  let t := t.tellLink d .disconnected .connecting
  if t.machine.hasRoom then t.requestLink env d else t.evictFor env d

/-- A stable machine takes a link down. -/
def takeDown (d : Address) (t : Turn) : Turn :=
  let t := t.tellLink d .connected .disconnecting
  let asked := t.ask env (.disconnect d)
  if t.accepts env (.disconnect d) then
    ((asked.change fun m => { m with leaving := some d }).startTimer d).stopPlaying d
  else asked.tellLink d .disconnecting .connected

/-- A stable machine carries a request out, unless there is nothing to do. -/
def carryOut (t : Turn) : Request → Turn
  | .connect d => if d ∈ t.machine.members then t else t.bringUp env d
  | .disconnect d => if d ∈ t.machine.members then t.takeDown env d else t

/-! ## The queue -/

/-- A request joins the queue, unless it repeats the last one there for its device. -/
def defer (r : Request) (t : Turn) : Turn :=
  if t.machine.deferred.reverse.find? (·.device = r.device) = some r then t
  else t.change fun m => { m with deferred := m.deferred ++ [r] }

/-- The waiting requests are carried out while the machine is stable. -/
def replay : List Request → Turn → Turn
  | [], t => t
  | r :: rest, t =>
    if t.machine.isStable then
      replay rest ((t.change fun m => { m with deferred := rest }).carryOut env r)
    else t

/-! ## A request that comes in -/

/-- The host asks for a link. A member that stays, and a device whose link is being
brought up, need nothing more. -/
def connect (d : Address) (t : Turn) : Turn :=
  if t.machine.isSettled d || t.machine.isInFlight d then t
  else if t.machine.isStable then t.bringUp env d
  else t.defer (.connect d)

/-- The host asks for a link to be taken down. A link that was not asked for yet is given
up at once; a member on its way out, and a device without a link, need nothing. -/
def disconnect (d : Address) (t : Turn) : Turn :=
  if t.machine.leaving = some d then t
  else if t.machine.awaitsEviction d then t.abandonOutgoing
  else if d ∉ t.machine.members ∧ !t.machine.isInFlight d then t
  else if t.machine.isStable then t.takeDown env d
  else t.defer (.disconnect d)

/-- The machine works on a request of the host. -/
def submit (t : Turn) : Request → Turn
  | .connect d => t.connect env d
  | .disconnect d => t.disconnect env d

end AudioLink.Turn
