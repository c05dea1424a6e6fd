import AudioLink.Controller
import AudioLink.Stack.Scripted

/-!
# The bench

A controller wired to a scripted stack. On the bench no time passes by itself: the
mailbox is worked off when it is asked for, and timers expire when they are told to.

Both are repetitions with a bound, and `Bench.comes_to_rest` says that the bounds are high
enough. A message, and a request that waits, leads to at most three requests of the stack:
that an older member goes, that the link comes up, and that a link that came too late goes
again. Each of them is confirmed by one message, and what is already in flight adds a few.
A timer that expires settles what it was armed for, and a request that waits arms at most
two.
-/

namespace AudioLink

/-- A controller wired to a scripted stack. -/
structure Bench where
  controller : Controller
  stack : ScriptedStack
deriving DecidableEq

namespace Bench

/-- How many requests wait in the machine. -/
def waiting (b : Bench) : Nat :=
  b.controller.publisher.machine.deferred.length

/-! ## The mailbox -/

/-- The oldest message is dealt with, if there is one. What the stack confirms joins the
mailbox at its end, as long as they are dealt with. -/
def deal? (b : Bench) : Option Bench :=
  (b.controller.deal? (b.stack.surroundings b.controller.registry.facts)).map fun (c, turn) =>
    let confirmed := (b.stack.confirmations turn).map Message.event
    { controller :=
        if c.publisher.isRunning then { c with mailbox := c.mailbox ++ confirmed } else c
      stack := b.stack.record turn }

/-- So many messages are dealt with, or fewer where there are no more. -/
def dealUpTo : Nat → Bench → Bench
  | 0, b => b
  | bound + 1, b => match b.deal? with
    | none => b
    | some b => dealUpTo bound b

/-- The mailbox is worked off, with all that is confirmed meanwhile. -/
def settle (b : Bench) : Bench :=
  b.dealUpTo (4 * (b.controller.mailbox.length + b.waiting) + 8)

/-! ## Timers -/

/-- The timer that was armed first expires, if one is armed. -/
def expireOldest? (b : Bench) : Option Bench :=
  b.controller.publisher.machine.timers.oldest?.map fun (d, timer) =>
    settle { b with
      controller.mailbox := b.controller.mailbox ++ [.timeout d timer.generation] }

/-- So many timers expire, or fewer where there are no more. -/
def expireUpTo : Nat → Bench → Bench
  | 0, b => b
  | bound + 1, b => match b.expireOldest? with
    | none => b
    | some b => expireUpTo bound b

/-- Timers expire, the one armed first before the others, until none is armed. -/
def expireAll (b : Bench) : Bench :=
  b.expireUpTo (2 * b.waiting + 3)

end Bench

end AudioLink
