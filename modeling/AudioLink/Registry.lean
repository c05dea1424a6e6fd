import AudioLink.Address
import AudioLink.Priority

/-!
# What is stored about devices

The registry holds the priorities that were chosen and the devices that are bonded.
A decision reads it only through the facts about one device at a time.
-/

namespace AudioLink

/-- What a decision may ask about a device. -/
structure Facts where
  priority : Address → Priority
  bonded : Address → Bool

/-- The stored priorities and bonds. -/
structure Registry where
  priorities : AddressMap Priority := ∅
  bonds : AddressSet := ∅
deriving DecidableEq

namespace Registry

instance : Inhabited Registry := ⟨{}⟩

/-- The stored priority of a device; nothing was chosen where none is stored. -/
def priority (r : Registry) (d : Address) : Priority :=
  r.priorities[d]?.getD .undefined

/-- The device is bonded. -/
def isBonded (r : Registry) (d : Address) : Bool :=
  d ∈ r.bonds

/-- The bonded devices in ascending order. -/
def bonded (r : Registry) : List Address :=
  r.bonds.toList

def setPriority (d : Address) (p : Priority) (r : Registry) : Registry :=
  { r with priorities := r.priorities.insert d p }

def setBonded (d : Address) (bonded : Bool) (r : Registry) : Registry :=
  { r with bonds := if bonded then r.bonds.insert d else r.bonds.erase d }

/-- A device is bonded and given a priority at once. -/
def addDevice (d : Address) (p : Priority) (r : Registry) : Registry :=
  (r.setBonded d true).setPriority d p

/-- What the registry tells a decision. -/
def facts (r : Registry) : Facts where
  priority := r.priority
  bonded := r.isBonded

@[simp] theorem priority_setPriority (d e : Address) (p : Priority) (r : Registry) :
    (r.setPriority d p).priority e = if d = e then p else r.priority e := by
  simp only [priority, setPriority, Std.ExtTreeMap.getElem?_insert,
    Std.LawfulEqCmp.compare_eq_iff_eq]
  split <;> rfl

@[simp] theorem priority_setBonded (d e : Address) (b : Bool) (r : Registry) :
    (r.setBonded d b).priority e = r.priority e := rfl

@[simp] theorem isBonded_setPriority (d e : Address) (p : Priority) (r : Registry) :
    (r.setPriority d p).isBonded e = r.isBonded e := rfl

@[simp] theorem isBonded_setBonded (d e : Address) (b : Bool) (r : Registry) :
    (r.setBonded d b).isBonded e = if d = e then b else r.isBonded e := by
  cases b <;> by_cases h : d = e <;>
    simp [isBonded, setBonded, Std.ExtTreeSet.mem_insert, Std.ExtTreeSet.mem_erase, h]

theorem mem_bonded {r : Registry} {d : Address} : d ∈ r.bonded ↔ r.isBonded d = true := by
  simp [bonded, isBonded]

/-- The listing of bonded devices is strictly ascending. -/
theorem bonded_ascending (r : Registry) :
    r.bonded.Pairwise fun a b => compare a b = .lt :=
  Std.ExtTreeSet.ordered_toList

end Registry

end AudioLink
