import AudioLink.Address
import AudioLink.Duration

/-!
# Timers

A device has at most one armed timer. Every start is given a generation, one above the
last, whatever the device. An expiry that reaches its reader after the timer was
restarted or cancelled bears a generation that is not armed any more, and cannot be
claimed; a claim takes the timer away, so each generation is claimed at most once.
-/

namespace AudioLink

/-- An armed timer. -/
structure Timer where
  generation : Nat
  duration : Duration
deriving DecidableEq, Repr

/-- The armed timers and the generation given out last. -/
structure Timers where
  lastGeneration : Nat := 0
  armed : AddressMap Timer := ∅
deriving DecidableEq

namespace Timers

instance : Inhabited Timers := ⟨{}⟩

/-- A timer is armed for a device with the next generation, in place of the one it may have. -/
def start (d : Address) (duration : Duration) (t : Timers) : Timers where
  lastGeneration := t.lastGeneration + 1
  armed := t.armed.insert d ⟨t.lastGeneration + 1, duration⟩

/-- The timer of a device is disarmed, if it has one. Its generation stays used up. -/
def cancel (d : Address) (t : Timers) : Timers :=
  { t with armed := t.armed.erase d }

/-- All timers are disarmed. Their generations stay used up. -/
def cancelAll (t : Timers) : Timers :=
  { t with armed := ∅ }

/-- The generation of the armed timer of a device. -/
def generation? (t : Timers) (d : Address) : Option Nat :=
  t.armed[d]?.map Timer.generation

/-- The timers left after the given generation is claimed, if it is the armed one. -/
def claim? (d : Address) (generation : Nat) (t : Timers) : Option Timers :=
  if t.generation? d = some generation then some (t.cancel d) else none

/-- The armed timer that was started first, with its device. -/
def oldest? (t : Timers) : Option (Address × Timer) :=
  t.armed.toList.foldl (fun found entry =>
    match found with
    | none => some entry
    | some best => if entry.2.generation < best.2.generation then some entry else found) none

@[simp] theorem generation?_start (d e : Address) (duration : Duration) (t : Timers) :
    (t.start d duration).generation? e
      = if d = e then some (t.lastGeneration + 1) else t.generation? e := by
  simp only [generation?, start, Std.ExtTreeMap.getElem?_insert,
    Std.LawfulEqCmp.compare_eq_iff_eq]
  split <;> rfl

@[simp] theorem generation?_cancel (d e : Address) (t : Timers) :
    (t.cancel d).generation? e = if d = e then none else t.generation? e := by
  simp only [generation?, cancel, Std.ExtTreeMap.getElem?_erase,
    Std.LawfulEqCmp.compare_eq_iff_eq]
  split <;> rfl

@[simp] theorem generation?_cancelAll (d : Address) (t : Timers) :
    t.cancelAll.generation? d = none := by
  simp [generation?, cancelAll]

/-- Where a timer is armed there is one that was started first. -/
theorem armed_of_oldest? {t : Timers} (h : t.oldest? = none) : t.armed = ∅ := by
  unfold oldest? at h
  cases hentries : t.armed.toList with
  | nil => exact Std.ExtTreeMap.toList_eq_nil_iff.mp hentries
  | cons first rest =>
    rw [hentries, List.foldl_cons] at h
    -- one was found among the first, and one is found ever after
    refine absurd h (List.foldlRecOn (motive := (· ≠ none)) rest _ (by simp)
      fun found hfound entry _ => ?_)
    cases found with
    | none => exact absurd rfl hfound
    | some best =>
      show (if entry.2.generation < best.2.generation then some entry else some best) ≠ none
      split <;> simp

/-- The timer that was started first is an armed one. -/
theorem generation?_of_oldest? {t : Timers} {d : Address} {timer : Timer}
    (h : t.oldest? = some (d, timer)) : t.generation? d = some timer.generation := by
  have hentry : ∀ entry, t.oldest? = some entry → entry ∈ t.armed.toList := by
    refine List.foldlRecOn (motive := fun found => ∀ entry, found = some entry → entry ∈ _)
      t.armed.toList _ (by simp) fun found hfound entry hmem entry' h' => ?_
    cases found with
    | none =>
      obtain rfl := Option.some.inj h'
      exact hmem
    | some best =>
      have h' : (if entry.2.generation < best.2.generation then some entry else some best)
          = some entry' := h'
      split at h'
      · obtain rfl := Option.some.inj h'
        exact hmem
      · exact hfound entry' h'
  have hheld : t.armed[d]? = some timer :=
    Std.ExtTreeMap.mem_toList_iff_getElem?_eq_some.mp (hentry _ h)
  rw [generation?, hheld]
  rfl

/-- A timer is disarmed once and for all. -/
@[simp] theorem cancel_cancel (d : Address) (t : Timers) :
    (t.cancel d).cancel d = t.cancel d := by
  have harmed : (t.armed.erase d).erase d = t.armed.erase d := by
    refine Std.ExtTreeMap.ext_getElem? fun e => ?_
    simp only [Std.ExtTreeMap.getElem?_erase]
    split <;> rfl
  simp only [cancel, harmed]

end Timers

end AudioLink
