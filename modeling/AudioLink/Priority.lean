/-!
# Priorities

The user may forbid or prefer links to a device. The choice is stored as an integer;
reading it back puts every integer into one of four classes.
-/

namespace AudioLink

/-- The stored choice on links to a device. -/
inductive Priority where
  | off
  | undefined
  | on
  | autoConnect
deriving DecidableEq, Repr

namespace Priority

/-- A device on which nothing was ever chosen. -/
instance : Inhabited Priority := ⟨undefined⟩

/-- The priority that a stored integer stands for. -/
def ofStored (value : Int) : Priority :=
  if value < 0 then undefined
  else if value = 0 then off
  else if value < 1000 then on
  else autoConnect

/-- The integer under which a priority is stored. -/
def stored : Priority → Int
  | undefined => -1
  | off => 0
  | on => 100
  | autoConnect => 1000

/-- The user wants links to the device. -/
def isEnabled : Priority → Bool
  | on | autoConnect => true
  | off | undefined => false

@[simp] theorem ofStored_stored (p : Priority) : ofStored p.stored = p := by
  cases p <;> decide

end Priority

end AudioLink
