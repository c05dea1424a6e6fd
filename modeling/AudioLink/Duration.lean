/-!
# Durations

A duration is a number of seconds and a part of a second in nanoseconds.
-/

namespace AudioLink

/-- A length of time, to the nanosecond. -/
structure Duration where
  seconds : UInt64
  nanos : Nat
  nanos_lt : nanos < 1000000000
deriving DecidableEq, Repr

namespace Duration

def zero : Duration := ⟨0, 0, by decide⟩

/-- The duration of a number of milliseconds. -/
def ofMillis (millis : UInt64) : Duration where
  seconds := millis / 1000
  nanos := millis.toNat % 1000 * 1000000
  nanos_lt := by have := Nat.mod_lt millis.toNat (show 1000 > 0 by decide); omega

def toMillis (d : Duration) : Nat :=
  d.seconds.toNat * 1000 + d.nanos / 1000000

/-- The duration of seconds and nanoseconds, where whole seconds among the nanoseconds
are carried over; there is none where the seconds do not fit. -/
def ofParts? (seconds nanos : Nat) : Option Duration :=
  let total := seconds + nanos / 1000000000
  if total < UInt64.size then
    some ⟨UInt64.ofNat total, nanos % 1000000000, Nat.mod_lt _ (by decide)⟩
  else none

theorem ofParts?_parts (d : Duration) : ofParts? d.seconds.toNat d.nanos = some d := by
  have hnanos := d.nanos_lt
  have hseconds := d.seconds.toNat_lt_size
  have hcarry : d.nanos / 1000000000 = 0 := by omega
  have hrest : d.nanos % 1000000000 = d.nanos := by omega
  simp [ofParts?, hcarry, hrest, hseconds]

end Duration

end AudioLink
