import AudioLink.Duration

/-!
# Settings

How many devices may be linked at once, whether only local requests are welcome, and
how long an operation may stay unconfirmed. Settings are valid when both the count
and the time are more than nothing.
-/

namespace AudioLink

/-- What is fixed before the machine begins. -/
structure Settings where
  /-- How many devices may be linked at once. -/
  capacity : UInt64 := 1
  /-- Only links that were asked for locally are welcome. -/
  quiet : Bool := false
  /-- How long an operation may stay unconfirmed. -/
  timeout : Duration := .ofMillis 30000
deriving DecidableEq, Repr

namespace Settings

/-- One device at a time. -/
instance : Inhabited Settings := ⟨{}⟩

/-- Two devices at a time, so that both can play the same stream. -/
def multicast : Settings :=
  { capacity := 2 }

/-- What can be wrong with settings. -/
inductive Problem where
  /-- The text held by a variable is not a count. -/
  | notANumber (name held : String)
  /-- The text held by a variable is not a truth value. -/
  | notABoolean (name held : String)
  /-- No device may be linked at all. -/
  | zeroCapacity
  /-- No operation is given any time. -/
  | zeroTimeout
deriving DecidableEq, Repr

def Problem.message : Problem → String
  | .notANumber name held => name ++ ": not a number: " ++ held
  | .notABoolean name held => name ++ ": expected a boolean: " ++ held
  | .zeroCapacity => "max_connections must be greater than 0"
  | .zeroTimeout => "connect_timeout must be greater than 0"

/-- The first thing wrong with the settings: the count is looked at before the time. -/
def validate (s : Settings) : Except Problem Unit :=
  if s.capacity = 0 then .error .zeroCapacity
  else if s.timeout = .zero then .error .zeroTimeout
  else .ok ()

def isMultiDevice (s : Settings) : Bool :=
  1 < s.capacity

end Settings

end AudioLink
