import AudioLink.Machine.Handle

/-!
# The changes of a turn, in closed form

A turn is written as a chain of small operations, each of which may add effects and
change the machine. Reasoning wants the end of the chain instead: which effects came
out, and which machine is left.

`Turn.goOn` is that end. Every operation of a turn equals a `goOn`, and a chain of
`goOn`s is one `goOn`. The machines that are left are named here, one name for each
change that an operation makes as a whole.
-/

namespace AudioLink

namespace Roles

/-- The roles once a device is a member no more. -/
def without (d : Address) (r : Roles) : Roles :=
  { r with members := r.members.filter (· ≠ d) }

/-- Who is primary once the primary member has gone. -/
def heir (r : Roles) : Option Address :=
  r.newestSettled.or r.members.getLast?

theorem outgoingDevice_eq {r : Roles} {d : Address} {stage : Stage}
    (hout : r.outgoing = some ⟨d, stage⟩) : r.outgoingDevice = some d := by
  rw [outgoingDevice, hout]
  rfl

theorem isInFlight_iff {r : Roles} {d : Address} :
    r.isInFlight d = true ↔ r.outgoingDevice = some d ∨ r.incoming = some d := by
  simp [isInFlight]

theorem isInFlight_eq_false_iff {r : Roles} {d : Address} :
    r.isInFlight d = false ↔ r.outgoingDevice ≠ some d ∧ r.incoming ≠ some d := by
  simp [isInFlight]

theorem awaitsEviction_iff {r : Roles} {d : Address} :
    r.awaitsEviction d = true ↔ ∃ v, r.outgoing = some ⟨d, .awaitingEviction v⟩ := by
  unfold awaitsEviction
  split
  · next e v hout => simp [hout]
  · next hout =>
    refine ⟨fun h => absurd h (by simp), ?_⟩
    rintro ⟨v, h⟩
    exact absurd h (hout d v)

theorem mem_of_newestSettled {r : Roles} {d : Address} (h : r.newestSettled = some d) :
    d ∈ r.members ∧ r.leaving ≠ some d := by
  have hd := List.mem_of_getLast? h
  simpa using hd

theorem mem_of_heir {r : Roles} {d : Address} (h : r.heir = some d) : d ∈ r.members := by
  rcases Option.or_eq_some_iff.mp h with h | ⟨_, h⟩
  · exact (mem_of_newestSettled h).1
  · exact List.mem_of_getLast? h

theorem heir_eq_none {r : Roles} (h : r.heir = none) : r.members = [] := by
  rw [heir, Option.or_eq_none_iff] at h
  exact List.getLast?_eq_none_iff.mp h.2

end Roles

namespace Machine

/-! ## What becomes of the machine -/

/-- The stack was asked for a link and accepted. -/
def awaitLink (d : Address) (m : Machine) : Machine :=
  { m with outgoing := some ⟨d, .requested⟩, timers := m.timers.start d m.timeout }

/-- The outgoing link is given up. -/
def abandon (d : Address) (m : Machine) : Machine :=
  { m with outgoing := none, timers := m.timers.cancel d, formats := m.formats.erase d }

/-- The device begins a link of its own. -/
def receive (d : Address) (m : Machine) : Machine :=
  { m with incoming := some d, timers := m.timers.start d m.timeout }

/-- The incoming link is given up. -/
def lose (d : Address) (m : Machine) : Machine :=
  { m with incoming := none, timers := m.timers.cancel d, formats := m.formats.erase d }

/-- A member is on its way out. -/
def beginParting (d : Address) (m : Machine) : Machine :=
  { m with
    leaving := some d, timers := m.timers.start d m.timeout, playing := m.playing.erase d }

/-- A member is on its way out to make room for a device. -/
def beginEviction (victim d : Address) (m : Machine) : Machine :=
  { m.beginParting victim with
    outgoing := some ⟨d, .awaitingEviction victim⟩
    timers := (m.timers.start victim m.timeout).start d m.timeout }

/-- A member is on its way out no more. -/
def endParting (d : Address) (m : Machine) : Machine :=
  { m with leaving := none, timers := m.timers.cancel d }

/-- A device is the newest member and the primary one. -/
def enlist (d : Address) (m : Machine) : Machine :=
  { m with members := m.members ++ [d], primary := some d }

/-- The outgoing link is up. -/
def completeOutgoing (d : Address) (m : Machine) : Machine :=
  { m with outgoing := none, timers := m.timers.cancel d }.enlist d

/-- The incoming link is up. -/
def completeIncoming (d : Address) (m : Machine) : Machine :=
  { m with incoming := none, timers := m.timers.cancel d }.enlist d

/-- A device is a member no more, and nothing is kept of it. -/
def expel (d : Address) (m : Machine) : Machine :=
  { m with
    members := m.members.filter (· ≠ d)
    primary := if m.primary = some d then (m.without d).heir else m.primary
    playing := m.playing.erase d
    formats := m.formats.erase d }

/-- The timer of a device has run. -/
def disarm (d : Address) (m : Machine) : Machine :=
  { m with timers := m.timers.cancel d }

/-- Nothing is in flight, waits or is timed any more. -/
def stop (m : Machine) : Machine :=
  { m with timers := m.timers.cancelAll, deferred := [], stopped := true }

/-! What follows the end of a timer cancels it once more, which changes nothing. -/

@[simp] theorem abandon_disarm (d : Address) (m : Machine) :
    (m.disarm d).abandon d = m.abandon d := by
  simp [disarm, abandon]

@[simp] theorem lose_disarm (d : Address) (m : Machine) : (m.disarm d).lose d = m.lose d := by
  simp [disarm, lose]

@[simp] theorem endParting_disarm (d : Address) (m : Machine) :
    (m.disarm d).endParting d = m.endParting d := by
  simp [disarm, endParting]

theorem mem_enlist {d e : Address} {m : Machine} :
    e ∈ (m.enlist d).members ↔ e ∈ m.members ∨ e = d := by
  simp [enlist]

theorem mem_expel {d e : Address} {m : Machine} :
    e ∈ (m.expel d).members ↔ e ∈ m.members ∧ e ≠ d := by
  simp [expel]

/-! ## What is told of it -/

/-- What is told of the playing of a device that is stopped. -/
def hush (d : Address) (m : Machine) : List Effect :=
  if d ∈ m.playing then [.notice (.play d .playing .notPlaying)] else []

/-- What is told of the one who becomes primary after a device. -/
def succession (d : Address) (m : Machine) : List Effect :=
  if m.primary = some d then
    ((m.without d).newestSettled.map fun e => .notice (.link e .disconnected .connected)).toList
  else []

/-- What is told when a device is a member no more. -/
def farewell (d : Address) (old : LinkState) (m : Machine) : List Effect :=
  m.hush d ++ .notice (.link d old .disconnected) :: m.succession d

/-! None of it is a request. -/

theorem notice_of_mem_hush {d : Address} {m : Machine} {e : Effect} (h : e ∈ m.hush d) :
    ∃ n, e = .notice n := by
  unfold hush at h
  split at h
  · exact ⟨_, List.mem_singleton.mp h⟩
  · simp at h

theorem notice_of_mem_farewell {d : Address} {old : LinkState} {m : Machine} {e : Effect}
    (h : e ∈ m.farewell d old) : ∃ n, e = .notice n := by
  rcases List.mem_append.mp h with h | h
  · exact notice_of_mem_hush h
  rcases List.mem_cons.mp h with h | h
  · exact ⟨_, h⟩
  · unfold succession at h
    split at h
    · simp only [Option.mem_toList, Option.map_eq_some_iff] at h
      obtain ⟨n, -, rfl⟩ := h
      exact ⟨_, rfl⟩
    · simp at h

@[simp] theorem accepted_hush (d : Address) (m : Machine) :
    (m.hush d).filterMap Effect.accepted? = [] := by
  refine List.filterMap_eq_nil_iff.mpr fun e he => ?_
  obtain ⟨n, rfl⟩ := notice_of_mem_hush he
  rfl

@[simp] theorem accepted_farewell (d : Address) (old : LinkState) (m : Machine) :
    (m.farewell d old).filterMap Effect.accepted? = [] := by
  refine List.filterMap_eq_nil_iff.mpr fun e he => ?_
  obtain ⟨n, rfl⟩ := notice_of_mem_farewell he
  rfl

end Machine

namespace Turn

/-! ## Chains of operations -/

/-- The turn after some more effects, with the machine that is left. -/
def goOn (es : List Effect) (m : Machine) (t : Turn) : Turn :=
  ⟨m, t.effects ++ es⟩

@[simp] theorem machine_goOn (es : List Effect) (m : Machine) (t : Turn) :
    (t.goOn es m).machine = m := rfl

@[simp] theorem goOn_goOn (es es' : List Effect) (m m' : Machine) (t : Turn) :
    (t.goOn es m).goOn es' m' = t.goOn (es ++ es') m' := by
  simp [goOn]

theorem goOn_nil (t : Turn) : t.goOn [] t.machine = t := by
  simp [goOn]

theorem tellLink_eq (d : Address) (old new : LinkState) (t : Turn) :
    t.tellLink d old new = t.goOn [.notice (.link d old new)] t.machine := rfl

theorem ask_eq (env : Surroundings) (r : Request) (t : Turn) :
    t.ask env r = t.goOn [.request r (t.accepts env r) t.machine.toRoles] t.machine := rfl

theorem reject_eq (env : Surroundings) (d : Address) (t : Turn) :
    t.reject env d
      = t.goOn [.request (.disconnect d) (t.accepts env (.disconnect d)) t.machine.toRoles,
          .rejected d] t.machine := by
  simp [reject, ask, emit, goOn]

theorem change_eq (f : Machine → Machine) (t : Turn) :
    t.change f = t.goOn [] (f t.machine) := by
  simp [change, goOn]

theorem effects_stopPlaying (d : Address) (t : Turn) :
    (t.stopPlaying d).effects = t.effects ++ t.machine.hush d := by
  unfold stopPlaying Machine.hush
  split
  · rfl
  · rw [List.append_nil]

theorem stopPlaying_eq (d : Address) (t : Turn) :
    t.stopPlaying d
      = t.goOn (t.machine.hush d) { t.machine with playing := t.machine.playing.erase d } := by
  calc t.stopPlaying d = ⟨(t.stopPlaying d).machine, (t.stopPlaying d).effects⟩ := rfl
    _ = _ := by rw [machine_stopPlaying, effects_stopPlaying]; rfl

theorem awaitLink_eq (d : Address) (t : Turn) :
    t.awaitLink d = t.goOn [] (t.machine.awaitLink d) := by
  simp [awaitLink, startTimer, change_eq, Machine.awaitLink]

theorem enlist_eq (d : Address) (old : LinkState) (t : Turn) :
    t.enlist d old = t.goOn [.notice (.link d old .connected)] (t.machine.enlist d) := by
  simp [enlist, change_eq, tellLink_eq, Machine.enlist]

theorem abandonOutgoing_eq {o : Outgoing} {t : Turn} (h : t.machine.outgoing = some o) :
    t.abandonOutgoing = t.goOn [.notice (.link o.device .connecting .disconnected)]
      (t.machine.abandon o.device) := by
  simp [abandonOutgoing, h, change_eq, tellLink_eq, cancelTimer, forgetFormat, Machine.abandon]

/-- The machine after an expulsion does not depend on whether anybody was told of an heir. -/
theorem electPrimary_eq (t : Turn) :
    t.electPrimary
      = t.goOn
          (t.machine.newestSettled.map fun e => .notice (.link e .disconnected .connected)).toList
          { t.machine with primary := t.machine.heir } := by
  unfold electPrimary Roles.heir
  split
  · next e he => simp [change_eq, tellLink_eq, he]
  · next he => simp [change_eq, he]

theorem expel_eq (d : Address) (old : LinkState) (t : Turn) :
    t.expel d old = t.goOn (t.machine.farewell d old) (t.machine.expel d) := by
  simp only [expel, change_eq, stopPlaying_eq, forgetFormat, tellLink_eq, electPrimary_eq,
    goOn_goOn, machine_goOn]
  by_cases h : t.machine.primary = some d
  · simp [h, Machine.farewell, Machine.hush, Machine.succession, Machine.expel, Roles.without]
  · simp [h, Machine.farewell, Machine.hush, Machine.succession, Machine.expel]

end Turn

end AudioLink
