import AudioLink.Machine.Basic
import AudioLink.Notice

/-!
# Turns

A turn is the machine at work on one message, with all it has done in it so far, in
order: the notices it gave, the requests it made of the stack with their answers, and
the other things it told the stack. Each request is kept together with the roles as
they stood when it was made.

The answers come from outside. They are given by number, so that whatever a stack may
answer in a turn is covered, also where it answers the same request in two ways.
-/

namespace AudioLink

/-- What the machine does that can be seen from outside. -/
inductive Effect where
  /-- Listeners are told something. -/
  | notice (n : Notice)
  /-- A request is made of the stack, which accepts it or not, while the roles are these. -/
  | request (r : Request) (accepted : Bool) (roles : Roles)
  /-- The stack is told whether a device may complete its link. -/
  | permission (d : Address) (allowed : Bool)
  /-- The stack is told that a device was turned away. -/
  | rejected (d : Address)
deriving DecidableEq, Repr

namespace Effect

/-- The notice given, if the effect is one. -/
def notice? : Effect → Option Notice
  | notice n => some n
  | request .. | permission .. | rejected .. => none

/-- The call that the stack receives, if the effect is one. -/
def call? : Effect → Option StackCall
  | notice _ => none
  | request r _ _ => some (.request r)
  | permission d allowed => some (.permission d allowed)
  | rejected d => some (.rejected d)

/-- The request made, if the effect is one that was accepted. -/
def accepted? : Effect → Option Request
  | request r true _ => some r
  | request _ false _ | notice _ | permission .. | rejected _ => none

def isRequest : Effect → Bool
  | request .. => true
  | notice _ | permission .. | rejected _ => false

end Effect

/-- What surrounds the machine during a turn. -/
structure Surroundings where
  /-- What is stored about devices. -/
  facts : Facts
  /-- The answer to a request, given how many were made before it in the turn. -/
  accepts : Nat → Request → Bool

/-- The machine at work on a message, and what it has done so far. -/
structure Turn where
  machine : Machine
  effects : List Effect := []
deriving DecidableEq

namespace Turn

/-- What listeners are told in the turn. -/
def notices (t : Turn) : List Notice :=
  t.effects.filterMap Effect.notice?

/-- What the stack is told and asked in the turn. -/
def calls (t : Turn) : List StackCall :=
  t.effects.filterMap Effect.call?

/-! ## Effects -/

/-- One more thing is done. -/
def emit (e : Effect) (t : Turn) : Turn :=
  { t with effects := t.effects ++ [e] }

/-- Listeners are told something. -/
def tell (n : Notice) (t : Turn) : Turn :=
  t.emit (.notice n)

/-- Listeners are told that the link to a device has changed. -/
def tellLink (d : Address) (old new : LinkState) (t : Turn) : Turn :=
  t.tell (.link d old new)

/-- The answer that a request would get now. -/
def accepts (env : Surroundings) (r : Request) (t : Turn) : Bool :=
  env.accepts (t.effects.countP Effect.isRequest) r

/-- A request is made of the stack. -/
def ask (env : Surroundings) (r : Request) (t : Turn) : Turn :=
  t.emit (.request r (t.accepts env r) t.machine.toRoles)

/-- A device is turned away. -/
def reject (env : Surroundings) (d : Address) (t : Turn) : Turn :=
  (t.ask env (.disconnect d)).emit (.rejected d)

/-! ## Changes of the machine -/

/-- The machine changes, and nothing shows of it. -/
def change (f : Machine → Machine) (t : Turn) : Turn :=
  { t with machine := f t.machine }

/-- The time that an operation may stay unconfirmed begins to run for a device. -/
def startTimer (d : Address) (t : Turn) : Turn :=
  t.change fun m => { m with timers := m.timers.start d m.timeout }

/-- The device has no timer any more. -/
def cancelTimer (d : Address) (t : Turn) : Turn :=
  t.change fun m => { m with timers := m.timers.cancel d }

/-- The format of the stream to the device is forgotten. -/
def forgetFormat (d : Address) (t : Turn) : Turn :=
  t.change fun m => { m with formats := m.formats.erase d }

/-- A device that plays does so no more. -/
def stopPlaying (d : Address) (t : Turn) : Turn :=
  if d ∈ t.machine.playing then
    (t.change fun m => { m with playing := m.playing.erase d }).tell (.play d .playing .notPlaying)
  else t

/-- A device becomes the newest member, and the primary one. -/
def enlist (d : Address) (old : LinkState) (t : Turn) : Turn :=
  (t.change fun m => { m with members := m.members ++ [d], primary := some d }).tellLink d
    old .connected

/-- The newest member that stays becomes the primary one. A member on its way out holds
the role only where no other is left, and nobody is told. -/
def electPrimary (t : Turn) : Turn :=
  match t.machine.newestSettled with
  | some d => (t.change fun m => { m with primary := some d }).tellLink d .disconnected .connected
  | none => t.change fun m => { m with primary := m.members.getLast? }

/-- A device is a member no more. -/
def expel (d : Address) (old : LinkState) (t : Turn) : Turn :=
  let t := t.change fun m => { m with members := m.members.filter (· ≠ d) }
  -- a device is silent before it is gone
  let t := ((t.stopPlaying d).forgetFormat d).tellLink d old .disconnected
  if t.machine.primary = some d then t.electPrimary else t

/-- The stack has accepted a request for a link: it is awaited. -/
def awaitLink (d : Address) (t : Turn) : Turn :=
  (t.change fun m => { m with outgoing := some ⟨d, .requested⟩ }).startTimer d

/-- The link that was being brought up is given up. -/
def abandonOutgoing (t : Turn) : Turn :=
  match t.machine.outgoing with
  | none => t
  | some o =>
    let t := t.change fun m => { m with outgoing := none }
    ((t.cancelTimer o.device).forgetFormat o.device).tellLink o.device .connecting .disconnected

/-! ## What is left of the machine -/

@[simp] theorem machine_emit (e : Effect) (t : Turn) : (t.emit e).machine = t.machine := rfl

@[simp] theorem machine_tell (n : Notice) (t : Turn) : (t.tell n).machine = t.machine := rfl

@[simp] theorem machine_tellLink (d : Address) (old new : LinkState) (t : Turn) :
    (t.tellLink d old new).machine = t.machine := rfl

@[simp] theorem machine_ask (env : Surroundings) (r : Request) (t : Turn) :
    (t.ask env r).machine = t.machine := rfl

@[simp] theorem machine_reject (env : Surroundings) (d : Address) (t : Turn) :
    (t.reject env d).machine = t.machine := rfl

@[simp] theorem machine_change (f : Machine → Machine) (t : Turn) :
    (t.change f).machine = f t.machine := rfl

@[simp] theorem effects_emit (e : Effect) (t : Turn) :
    (t.emit e).effects = t.effects ++ [e] := rfl

@[simp] theorem effects_change (f : Machine → Machine) (t : Turn) :
    (t.change f).effects = t.effects := rfl

/-- Whether it played or not, a device that is stopped plays no more. -/
@[simp] theorem machine_stopPlaying (d : Address) (t : Turn) :
    (t.stopPlaying d).machine = { t.machine with playing := t.machine.playing.erase d } := by
  unfold stopPlaying
  split
  · rfl
  · next h =>
    have hsame : t.machine.playing.erase d = t.machine.playing := by
      refine Std.ExtTreeSet.ext_mem fun e => ?_
      rw [Std.ExtTreeSet.mem_erase]
      constructor
      · exact And.right
      · intro he
        exact ⟨fun heq => h (Std.LawfulEqCmp.eq_of_compare heq ▸ he), he⟩
    rw [hsame]

end Turn

end AudioLink
