import AudioLink.Machine.Turn

/-!
# Events of the stack

The stack confirms what it was asked for, and reports what devices do of their own
accord. A device that was not asked for is let in where a place is left and the policy
allows it, and turned away otherwise.
-/

namespace AudioLink.Turn

variable (env : Surroundings)

/-- The member has gone that the outgoing link waited for: the stack is asked for it. -/
def requestAwaited (d : Address) (t : Turn) : Turn :=
  let asked := t.ask env (.connect d)
  if t.accepts env (.connect d) then asked.awaitLink d
  else asked.abandonOutgoing

/-- The link to a device is down. A member is expelled, and the outgoing link that waited for
its place is asked for; a link that was being brought up has failed. -/
def linkDown (d : Address) (t : Turn) : Turn :=
  if t.machine.leaving = some d then
    let t := ((t.change fun m => { m with leaving := none }).cancelTimer d).expel d .disconnecting
    match t.machine.outgoing with
    | some ⟨device, .awaitingEviction victim⟩ =>
      if victim = d then t.requestAwaited env device else t
    | _ => t
  else if d ∈ t.machine.members then t.expel d .connected
  else if t.machine.outgoingDevice = some d then t.abandonOutgoing
  else if t.machine.incoming = some d then
    let t := (t.change fun m => { m with incoming := none }).cancelTimer d
    (t.forgetFormat d).tellLink d .connecting .disconnected
  else t

/-- A device brings up a link by itself. One without a role becomes the incoming device, if
no other is, a place is left and the policy allows it; otherwise it is turned away. -/
def linkComing (d : Address) (t : Turn) : Turn :=
  if d ∈ t.machine.members ∨ t.machine.isInFlight d then t
  else if t.machine.incoming = none ∧ t.machine.hasRoom ∧ t.machine.policy.allows env.facts d false
  then
    let t := t.change fun m => { m with incoming := some d }
    (t.tellLink d .disconnected .connecting).startTimer d
  else t.reject env d

/-- The link to a device is up. A device that the machine was linking to becomes a member, and
one that came by itself does if it is welcome, as far as there is a place; a member that was
on its way out stays after all. -/
def linkUp (d : Address) (t : Turn) : Turn :=
  if t.machine.outgoingDevice = some d then
    if t.machine.members.length < t.machine.capacity then
      ((t.change fun m => { m with outgoing := none }).cancelTimer d).enlist d .connecting
    -- it came up by itself while the member that has to go is still there
    else (t.ask env (.disconnect d)).abandonOutgoing
  else if t.machine.incoming = some d then
    -- the user may have changed their mind since the device began
    if t.machine.policy.allows env.facts d false
        ∧ t.machine.members.length < t.machine.capacity then
      ((t.change fun m => { m with incoming := none }).cancelTimer d).enlist d .connecting
    else t.ask env (.disconnect d)
  else if t.machine.leaving = some d then
    -- the member does not go after all, so nobody can wait for its place
    let t := (t.change fun m => { m with leaving := none }).cancelTimer d
    let t := t.tellLink d .disconnecting .connected
    match t.machine.outgoing with
    | some ⟨_, .awaitingEviction victim⟩ => if victim = d then t.abandonOutgoing else t
    | _ => t
  else if d ∈ t.machine.members then t
  else if t.machine.policy.allows env.facts d false ∧ t.machine.hasRoom then
    t.enlist d .disconnected
  else t.reject env d

/-- The stream to a member has reached a state. -/
def streamChanged (d : Address) (state : StreamState) (t : Turn) : Turn :=
  if d ∈ t.machine.members then
    match state.playState with
    | .playing =>
      if d ∈ t.machine.playing then t
      else (t.change fun m => { m with playing := m.playing.insert d }).tell
        (.play d .notPlaying .playing)
    | .notPlaying => t.stopPlaying d
  else t

/-- The format of the stream to a member, or to one that may become a member, is settled. -/
def formatChanged (d : Address) (format : StreamFormat) (t : Turn) : Turn :=
  if d ∈ t.machine.members ∨ t.machine.isInFlight d then
    if t.machine.formats[d]? = some format then t
    else (t.change fun m => { m with formats := m.formats.insert d format }).tell
      (.format d format)
  else t

/-- The stack is told whether a device may complete its link. -/
def answerPermission (d : Address) (t : Turn) : Turn :=
  let locally : Bool := t.machine.outgoingDevice = some d
  t.emit (.permission d (t.machine.policy.allows env.facts d locally))

/-- The machine works on what the stack reports. That a link is going down is no news: it
still counts until it is down. -/
def report (t : Turn) : StackEvent → Turn
  | .link d .disconnected => t.linkDown env d
  | .link d .connecting => t.linkComing env d
  | .link d .connected => t.linkUp env d
  | .link _ .disconnecting => t
  | .stream d state => t.streamChanged d state
  | .format d format => t.formatChanged d format
  | .permission d => t.answerPermission env d

end AudioLink.Turn
