import AudioLink.Proofs.Consistent

/-!
# Everything a message can come to

`Outcome env m msg es m'` says that a machine `m` that works on a message `msg` can do the
effects `es` and be `m'` afterwards. There is one constructor for each way through the
handlers, with what was found on that way; `process_outcome` says that there is no other.
Every invariant of the machine is a case analysis over these constructors, and nothing
below this module opens a handler again.

The ways assume that the machine was consistent, so that a way that would need two roles
for one device does not appear. What a request is answered is only known to be an answer
of the surroundings, to whichever question of the turn.
-/

namespace AudioLink

/-- A request may get this answer, whenever it is made. -/
def Surroundings.Answers (env : Surroundings) (r : Request) (a : Bool) : Prop :=
  ∃ n, env.accepts n r = a

/-- There is nothing to do about a message. -/
inductive Needless (env : Surroundings) (m : Machine) : Message → Prop where
  | held {d : Address} (h : m.isSettled d = true ∨ m.isInFlight d = true) :
      Needless env m (.request (.connect d))
  | repeated {r : Request} (hbusy : m.isStable = false)
      (h : m.deferred.reverse.find? (·.device = r.device) = some r) :
      Needless env m (.request r)
  | parting {d : Address} (h : m.leaving = some d) : Needless env m (.request (.disconnect d))
  | unlinked {d : Address} (hd : d ∉ m.members) (h : m.isInFlight d = false) :
      Needless env m (.request (.disconnect d))
  | strangerDown {d : Address} (hd : d ∉ m.members) (h : m.isInFlight d = false) :
      Needless env m (.event (.link d .disconnected))
  | comingKnown {d : Address} (h : d ∈ m.members ∨ m.isInFlight d = true) :
      Needless env m (.event (.link d .connecting))
  | upTwice {d : Address} (hd : d ∈ m.members) (h : m.leaving ≠ some d) :
      Needless env m (.event (.link d .connected))
  | goingDown {d : Address} : Needless env m (.event (.link d .disconnecting))
  | strangeStream {d : Address} {state : StreamState} (hd : d ∉ m.members) :
      Needless env m (.event (.stream d state))
  | playingOn {d : Address} {state : StreamState} (hd : d ∈ m.playing)
      (h : state.playState = .playing) : Needless env m (.event (.stream d state))
  | strangeFormat {d : Address} {format : StreamFormat} (hd : d ∉ m.members)
      (h : m.isInFlight d = false) : Needless env m (.event (.format d format))
  | sameFormat {d : Address} {format : StreamFormat} (h : m.formats[d]? = some format) :
      Needless env m (.event (.format d format))
  | stale {d : Address} {g : Nat} (h : m.timers.generation? d ≠ some g) :
      Needless env m (.timeout d g)

/-- The member on its way out is gone. Whoever waited for its place is asked for now. -/
inductive Parted (env : Surroundings) (m : Machine) (d : Address) :
    List Effect → Machine → Prop where
  | vacated (hout : m.outgoing = none) :
      Parted env m d ((m.endParting d).farewell d .disconnecting) ((m.endParting d).expel d)
  | requested {e : Address} (hout : m.outgoing = some ⟨e, .awaitingEviction d⟩)
      (hacc : env.Answers (.connect e) true) :
      Parted env m d
        ((m.endParting d).farewell d .disconnecting
          ++ [.request (.connect e) true ((m.endParting d).expel d).toRoles])
        (((m.endParting d).expel d).awaitLink e)
  | refused {e : Address} (hout : m.outgoing = some ⟨e, .awaitingEviction d⟩)
      (hacc : env.Answers (.connect e) false) :
      Parted env m d
        ((m.endParting d).farewell d .disconnecting
          ++ [.request (.connect e) false ((m.endParting d).expel d).toRoles,
            .notice (.link e .connecting .disconnected)])
        (((m.endParting d).expel d).abandon e)

/-- The outgoing link is given up for good. -/
inductive OutgoingDropped (env : Surroundings) (m : Machine) : List Effect → Machine → Prop where
  | absent (hout : m.outgoing = none) : OutgoingDropped env m [] m
  | awaiting {d v : Address} (hout : m.outgoing = some ⟨d, .awaitingEviction v⟩) :
      OutgoingDropped env m [.notice (.link d .connecting .disconnected)]
        { m with outgoing := none, formats := m.formats.erase d }
  | requested {d : Address} {a : Bool} (hout : m.outgoing = some ⟨d, .requested⟩)
      (hans : env.Answers (.disconnect d) a) :
      OutgoingDropped env m
        [.request (.disconnect d) a { m.toRoles with outgoing := none },
          .notice (.link d .connecting .disconnected)]
        { m with outgoing := none, formats := m.formats.erase d }

/-- The incoming link is given up for good. -/
inductive IncomingDropped (env : Surroundings) (m : Machine) : List Effect → Machine → Prop where
  | absent (hin : m.incoming = none) : IncomingDropped env m [] m
  | present {d : Address} {a : Bool} (hin : m.incoming = some d)
      (hans : env.Answers (.disconnect d) a) :
      IncomingDropped env m
        [.request (.disconnect d) a { m.toRoles with incoming := none },
          .notice (.link d .connecting .disconnected)]
        { m with incoming := none, formats := m.formats.erase d }

/-- What a machine can do about a message, and which machine it is afterwards. -/
inductive Outcome (env : Surroundings) (m : Machine) :
    Message → List Effect → Machine → Prop where
  | nothing {msg : Message} (h : Needless env m msg) : Outcome env m msg [] m
  -- requests for a link
  | connectDeferred {d : Address} (hd : m.isSettled d = false) (hflight : m.isInFlight d = false)
      (hbusy : m.isStable = false)
      (hnew : m.deferred.reverse.find? (·.device = d) ≠ some (.connect d)) :
      Outcome env m (.request (.connect d)) [] { m with deferred := m.deferred ++ [.connect d] }
  | linkRefused {d : Address} (hstable : m.isStable = true) (hd : d ∉ m.members)
      (hroom : m.hasRoom = true) (hacc : env.Answers (.connect d) false) :
      Outcome env m (.request (.connect d))
        [.notice (.link d .disconnected .connecting),
          .request (.connect d) false m.toRoles,
          .notice (.link d .connecting .disconnected)]
        m
  | linkRequested {d : Address} (hstable : m.isStable = true) (hd : d ∉ m.members)
      (hroom : m.hasRoom = true) (hacc : env.Answers (.connect d) true) :
      Outcome env m (.request (.connect d))
        [.notice (.link d .disconnected .connecting), .request (.connect d) true m.toRoles]
        (m.awaitLink d)
  | noVictim {d : Address} (hstable : m.isStable = true) (hfull : m.hasRoom = false)
      (hnone : m.members = []) :
      Outcome env m (.request (.connect d))
        [.notice (.link d .disconnected .connecting), .notice (.link d .connecting .disconnected)]
        m
  | evictionRefused {d v : Address} (hstable : m.isStable = true) (hd : d ∉ m.members)
      (hfull : m.hasRoom = false) (hv : m.members.head? = some v)
      (hacc : env.Answers (.disconnect v) false) :
      Outcome env m (.request (.connect d))
        [.notice (.link d .disconnected .connecting),
          .request (.disconnect v) false m.toRoles,
          .notice (.link d .connecting .disconnected)]
        m
  | evictionBegun {d v : Address} (hstable : m.isStable = true) (hd : d ∉ m.members)
      (hfull : m.hasRoom = false) (hv : m.members.head? = some v)
      (hacc : env.Answers (.disconnect v) true) :
      Outcome env m (.request (.connect d))
        ([.notice (.link d .disconnected .connecting),
          .request (.disconnect v) true m.toRoles,
          .notice (.link v .connected .disconnecting)] ++ m.hush v)
        (m.beginEviction v d)
  -- requests for a link to be taken down
  | withdrawn {d v : Address} (hout : m.outgoing = some ⟨d, .awaitingEviction v⟩) :
      Outcome env m (.request (.disconnect d)) [.notice (.link d .connecting .disconnected)]
        (m.abandon d)
  | disconnectDeferred {d : Address} (hleave : m.leaving ≠ some d)
      (hwait : m.awaitsEviction d = false) (hd : d ∈ m.members ∨ m.isInFlight d = true)
      (hbusy : m.isStable = false)
      (hnew : m.deferred.reverse.find? (·.device = d) ≠ some (.disconnect d)) :
      Outcome env m (.request (.disconnect d)) []
        { m with deferred := m.deferred ++ [.disconnect d] }
  | partingRefused {d : Address} (hstable : m.isStable = true) (hd : d ∈ m.members)
      (hacc : env.Answers (.disconnect d) false) :
      Outcome env m (.request (.disconnect d))
        [.notice (.link d .connected .disconnecting),
          .request (.disconnect d) false m.toRoles,
          .notice (.link d .disconnecting .connected)]
        m
  | partingBegun {d : Address} (hstable : m.isStable = true) (hd : d ∈ m.members)
      (hacc : env.Answers (.disconnect d) true) :
      Outcome env m (.request (.disconnect d))
        ([.notice (.link d .connected .disconnecting),
          .request (.disconnect d) true m.toRoles] ++ m.hush d)
        (m.beginParting d)
  -- links that are down
  | parted {d : Address} {es : List Effect} {m' : Machine} (hleave : m.leaving = some d)
      (h : Parted env m d es m') : Outcome env m (.event (.link d .disconnected)) es m'
  | dropped {d : Address} (hd : d ∈ m.members) (hleave : m.leaving ≠ some d) :
      Outcome env m (.event (.link d .disconnected)) (m.farewell d .connected) (m.expel d)
  | linkFailed {d : Address} (hout : m.outgoingDevice = some d) :
      Outcome env m (.event (.link d .disconnected))
        [.notice (.link d .connecting .disconnected)] (m.abandon d)
  | incomingFailed {d : Address} (hin : m.incoming = some d) :
      Outcome env m (.event (.link d .disconnected))
        [.notice (.link d .connecting .disconnected)] (m.lose d)
  -- links that are coming up
  | incomingBegun {d : Address} (hd : d ∉ m.members) (hflight : m.isInFlight d = false)
      (hin : m.incoming = none) (hroom : m.hasRoom = true)
      (hallow : m.policy.allows env.facts d false = true) :
      Outcome env m (.event (.link d .connecting))
        [.notice (.link d .disconnected .connecting)] (m.receive d)
  | comingRejected {d : Address} {a : Bool} (hd : d ∉ m.members)
      (hflight : m.isInFlight d = false)
      (hwhy : ¬(m.incoming = none ∧ m.hasRoom = true
        ∧ m.policy.allows env.facts d false = true))
      (hans : env.Answers (.disconnect d) a) :
      Outcome env m (.event (.link d .connecting))
        [.request (.disconnect d) a m.toRoles, .rejected d] m
  -- links that are up
  | linked {d : Address} (hout : m.outgoingDevice = some d)
      (hroom : m.members.length < m.capacity) :
      Outcome env m (.event (.link d .connected)) [.notice (.link d .connecting .connected)]
        (m.completeOutgoing d)
  | linkedEarly {d : Address} {a : Bool} (hout : m.outgoingDevice = some d)
      (hfull : ¬m.members.length < m.capacity) (hans : env.Answers (.disconnect d) a) :
      Outcome env m (.event (.link d .connected))
        [.request (.disconnect d) a m.toRoles,
          .notice (.link d .connecting .disconnected)]
        (m.abandon d)
  | incomingLinked {d : Address} (hin : m.incoming = some d)
      (hallow : m.policy.allows env.facts d false = true)
      (hroom : m.members.length < m.capacity) :
      Outcome env m (.event (.link d .connected)) [.notice (.link d .connecting .connected)]
        (m.completeIncoming d)
  | incomingRefused {d : Address} {a : Bool} (hin : m.incoming = some d)
      (hwhy : ¬(m.policy.allows env.facts d false = true ∧ m.members.length < m.capacity))
      (hans : env.Answers (.disconnect d) a) :
      Outcome env m (.event (.link d .connected))
        [.request (.disconnect d) a m.toRoles] m
  | stayed {d : Address} (hleave : m.leaving = some d) (hout : m.outgoing = none) :
      Outcome env m (.event (.link d .connected)) [.notice (.link d .disconnecting .connected)]
        (m.endParting d)
  | stayedAgainst {d e : Address} (hout : m.outgoing = some ⟨e, .awaitingEviction d⟩) :
      Outcome env m (.event (.link d .connected))
        [.notice (.link d .disconnecting .connected), .notice (.link e .connecting .disconnected)]
        ((m.endParting d).abandon e)
  | admitted {d : Address} (hd : d ∉ m.members) (hflight : m.isInFlight d = false)
      (hallow : m.policy.allows env.facts d false = true) (hroom : m.hasRoom = true) :
      Outcome env m (.event (.link d .connected)) [.notice (.link d .disconnected .connected)]
        (m.enlist d)
  | upRejected {d : Address} {a : Bool} (hd : d ∉ m.members) (hflight : m.isInFlight d = false)
      (hwhy : ¬(m.policy.allows env.facts d false = true ∧ m.hasRoom = true))
      (hans : env.Answers (.disconnect d) a) :
      Outcome env m (.event (.link d .connected))
        [.request (.disconnect d) a m.toRoles, .rejected d] m
  -- streams and questions
  | played {d : Address} {state : StreamState} (hd : d ∈ m.members) (hsilent : d ∉ m.playing)
      (hstate : state.playState = .playing) :
      Outcome env m (.event (.stream d state)) [.notice (.play d .notPlaying .playing)]
        { m with playing := m.playing.insert d }
  | silenced {d : Address} {state : StreamState} (hd : d ∈ m.members)
      (hstate : state.playState = .notPlaying) :
      Outcome env m (.event (.stream d state)) (m.hush d)
        { m with playing := m.playing.erase d }
  | formatSet {d : Address} {format : StreamFormat}
      (hd : d ∈ m.members ∨ m.isInFlight d = true) (hnew : m.formats[d]? ≠ some format) :
      Outcome env m (.event (.format d format)) [.notice (.format d format)]
        { m with formats := m.formats.insert d format }
  | answered {d : Address} :
      Outcome env m (.event (.permission d))
        [.permission d (m.policy.allows env.facts d (m.outgoingDevice = some d))] m
  -- timers that have expired
  | evictionExpired {d v : Address} {g : Nat} (hlive : m.timers.generation? d = some g)
      (hout : m.outgoing = some ⟨d, .awaitingEviction v⟩) :
      Outcome env m (.timeout d g)
        (.notice (.link d .connecting .disconnected)
          :: ((m.abandon d).endParting v).farewell v .disconnecting)
        (((m.abandon d).endParting v).expel v)
  | linkExpired {d : Address} {g : Nat} {a : Bool} (hlive : m.timers.generation? d = some g)
      (hout : m.outgoing = some ⟨d, .requested⟩) (hans : env.Answers (.disconnect d) a) :
      Outcome env m (.timeout d g)
        [.request (.disconnect d) a m.toRoles,
          .notice (.link d .connecting .disconnected)]
        (m.abandon d)
  | incomingExpired {d : Address} {g : Nat} {a : Bool} (hlive : m.timers.generation? d = some g)
      (hin : m.incoming = some d) (hans : env.Answers (.disconnect d) a) :
      Outcome env m (.timeout d g)
        [.request (.disconnect d) a m.toRoles,
          .notice (.link d .connecting .disconnected)]
        (m.lose d)
  | partingExpired {d : Address} {g : Nat} {es : List Effect} {m' : Machine}
      (hlive : m.timers.generation? d = some g) (hleave : m.leaving = some d)
      (h : Parted env m d es m') : Outcome env m (.timeout d g) es m'
  | nothingExpired {d : Address} {g : Nat} (hlive : m.timers.generation? d = some g)
      (hflight : m.isInFlight d = false) (hleave : m.leaving ≠ some d) :
      Outcome env m (.timeout d g) [] (m.disarm d)
  -- the end
  | stopped {es es' : List Effect} {m₁ m₂ : Machine} (hout : OutgoingDropped env m es m₁)
      (hin : IncomingDropped env m₁ es' m₂) : Outcome env m .shutdown (es ++ es') m₂.stop

namespace Turn

variable {env : Surroundings} {t : Turn}

/-- The turn `t'` goes on from `t` in one of the ways of `P`. -/
def Continues (P : List Effect → Machine → Prop) (t t' : Turn) : Prop :=
  ∃ es m', t' = t.goOn es m' ∧ P es m'

theorem continues_nothing {msg : Message} (h : Needless env t.machine msg) :
    Continues (Outcome env t.machine msg) t t :=
  ⟨[], t.machine, t.goOn_nil.symm, .nothing h⟩

theorem answers_accepts (t : Turn) (env : Surroundings) (r : Request) :
    env.Answers r (t.accepts env r) :=
  ⟨_, rfl⟩

/-! ## Requests of the host -/

theorem requestLink_outcome {d : Address} (hstable : t.machine.isStable = true)
    (hd : d ∉ t.machine.members) (hroom : t.machine.hasRoom = true) :
    Continues (Outcome env t.machine (.request (.connect d))) t
      ((t.tellLink d .disconnected .connecting).requestLink env d) := by
  rw [tellLink_eq]
  by_cases hacc : (t.goOn [.notice (.link d .disconnected .connecting)] t.machine).accepts env
      (.connect d) = true
  · refine ⟨_, _, ?_, .linkRequested hstable hd hroom ⟨_, hacc⟩⟩
    simp [requestLink, hacc, ask_eq, awaitLink_eq]
  · rw [Bool.not_eq_true] at hacc
    refine ⟨_, _, ?_, .linkRefused hstable hd hroom ⟨_, hacc⟩⟩
    simp [requestLink, hacc, ask_eq, tellLink_eq]

theorem evictFor_outcome {d : Address} (hstable : t.machine.isStable = true)
    (hd : d ∉ t.machine.members) (hfull : t.machine.hasRoom = false) :
    Continues (Outcome env t.machine (.request (.connect d))) t
      ((t.tellLink d .disconnected .connecting).evictFor env d) := by
  rw [tellLink_eq]
  cases hm : t.machine.members with
  | nil =>
      refine ⟨_, _, ?_, .noVictim hstable hfull hm⟩
      simp [evictFor, hm, tellLink_eq]
  | cons v rest =>
      have hv : t.machine.members.head? = some v := by rw [hm]; rfl
      by_cases hacc : (t.goOn [.notice (.link d .disconnected .connecting)] t.machine).accepts env
          (.disconnect v) = true
      · refine ⟨_, _, ?_, .evictionBegun hstable hd hfull hv ⟨_, hacc⟩⟩
        simp [evictFor, hm, hacc, ask_eq, tellLink_eq, stopPlaying_eq, change_eq, startTimer,
          Machine.beginEviction, Machine.beginParting]
      · rw [Bool.not_eq_true] at hacc
        refine ⟨_, _, ?_, .evictionRefused hstable hd hfull hv ⟨_, hacc⟩⟩
        simp [evictFor, hm, hacc, ask_eq, tellLink_eq]

theorem bringUp_outcome {d : Address} (hstable : t.machine.isStable = true)
    (hd : d ∉ t.machine.members) :
    Continues (Outcome env t.machine (.request (.connect d))) t (t.bringUp env d) := by
  by_cases hroom : t.machine.hasRoom = true
  · rw [show t.bringUp env d = (t.tellLink d .disconnected .connecting).requestLink env d from
      if_pos hroom]
    exact requestLink_outcome hstable hd hroom
  · rw [show t.bringUp env d = (t.tellLink d .disconnected .connecting).evictFor env d from
      if_neg hroom]
    exact evictFor_outcome hstable hd (Bool.not_eq_true _ ▸ hroom)

theorem takeDown_outcome {d : Address} (hstable : t.machine.isStable = true)
    (hd : d ∈ t.machine.members) :
    Continues (Outcome env t.machine (.request (.disconnect d))) t (t.takeDown env d) := by
  by_cases hacc : (t.goOn [.notice (.link d .connected .disconnecting)] t.machine).accepts env
      (.disconnect d) = true
  · refine ⟨_, _, ?_, .partingBegun hstable hd ⟨_, hacc⟩⟩
    simp only [takeDown, tellLink_eq, hacc, if_true, ask_eq, change_eq, startTimer, stopPlaying_eq,
      goOn_goOn, machine_goOn]
    rfl
  · rw [Bool.not_eq_true] at hacc
    refine ⟨_, _, ?_, .partingRefused hstable hd ⟨_, hacc⟩⟩
    simp [takeDown, hacc, ask_eq, tellLink_eq]

theorem defer_outcome {r : Request} (hbusy : t.machine.isStable = false)
    (hnew : t.machine.deferred.reverse.find? (·.device = r.device) ≠ some r →
      Outcome env t.machine (.request r) []
        { t.machine with deferred := t.machine.deferred ++ [r] }) :
    Continues (Outcome env t.machine (.request r)) t (t.defer r) := by
  unfold defer
  split
  · next hsame => exact continues_nothing (.repeated hbusy hsame)
  · next hother => exact ⟨_, _, change_eq .., hnew hother⟩

theorem connect_outcome (d : Address) :
    Continues (Outcome env t.machine (.request (.connect d))) t (t.connect env d) := by
  unfold connect
  split
  · next h =>
    exact continues_nothing (.held (by simpa using h))
  next h =>
    obtain ⟨hd, hflight⟩ : t.machine.isSettled d = false ∧ t.machine.isInFlight d = false := by
      simpa using h
    split
    · next hstable =>
      obtain ⟨_, _, hleave⟩ := Roles.isStable_iff.mp hstable
      exact bringUp_outcome hstable (by simpa [Roles.isSettled, hleave] using hd)
    · next hbusy =>
      rw [Bool.not_eq_true] at hbusy
      exact defer_outcome hbusy fun hnew => .connectDeferred hd hflight hbusy hnew

theorem disconnect_outcome (d : Address) :
    Continues (Outcome env t.machine (.request (.disconnect d))) t (t.disconnect env d) := by
  unfold disconnect
  split
  · next h => exact continues_nothing (.parting h)
  next hleave =>
    split
    · next hwait =>
      obtain ⟨v, hout⟩ := Roles.awaitsEviction_iff.mp hwait
      exact ⟨_, _, abandonOutgoing_eq hout, .withdrawn hout⟩
    next hwait =>
      rw [Bool.not_eq_true] at hwait
      split
      · next h => exact continues_nothing (.unlinked h.1 (by simpa using h.2))
      next h =>
        have hd : d ∈ t.machine.members ∨ t.machine.isInFlight d = true := by
          by_cases hm : d ∈ t.machine.members
          · exact Or.inl hm
          · exact Or.inr (by simpa [hm] using h)
        split
        · next hstable =>
          obtain ⟨hout, hin, _⟩ := Roles.isStable_iff.mp hstable
          refine takeDown_outcome hstable (hd.resolve_right ?_)
          simp [Roles.isInFlight, Roles.outgoingDevice, hout, hin]
        · next hbusy =>
          rw [Bool.not_eq_true] at hbusy
          exact defer_outcome hbusy fun hnew => .disconnectDeferred hleave hwait hd hbusy hnew

/-- A request that has waited is carried out like one that comes in. -/
theorem carryOut_eq_submit (env : Surroundings) (t : Turn) (r : Request)
    (hstable : t.machine.isStable = true) : t.carryOut env r = t.submit env r := by
  obtain ⟨hout, hin, hleave⟩ := Roles.isStable_iff.mp hstable
  have hflight : ∀ d, t.machine.isInFlight d = false := by
    simp [Roles.isInFlight, Roles.outgoingDevice, hout, hin]
  cases r with
  | connect d => simp [carryOut, submit, connect, Roles.isSettled, hflight, hleave, hstable]
  | disconnect d =>
      have hwait : t.machine.awaitsEviction d = false := by simp [Roles.awaitsEviction, hout]
      simp [carryOut, submit, disconnect, hwait, hflight, hleave, hstable]

theorem carryOut_outcome (env : Surroundings) (t : Turn) (r : Request)
    (hstable : t.machine.isStable = true) :
    Continues (Outcome env t.machine (.request r)) t (t.carryOut env r) := by
  rw [carryOut_eq_submit env t r hstable]
  cases r with
  | connect d => exact connect_outcome d
  | disconnect d => exact disconnect_outcome d

/-! ## Events of the stack -/

theorem requestAwaited_accepted {d : Address} (hacc : t.accepts env (.connect d) = true) :
    t.requestAwaited env d = t.goOn [.request (.connect d) true t.machine.toRoles]
      (t.machine.awaitLink d) := by
  simp [requestAwaited, hacc, ask_eq, awaitLink_eq]

theorem requestAwaited_refused {d : Address} {stage : Stage}
    (hacc : t.accepts env (.connect d) = false) (hout : t.machine.outgoing = some ⟨d, stage⟩) :
    t.requestAwaited env d
      = t.goOn [.request (.connect d) false t.machine.toRoles,
          .notice (.link d .connecting .disconnected)] (t.machine.abandon d) := by
  have habandon := abandonOutgoing_eq (t := t.ask env (.connect d)) hout
  rw [requestAwaited, hacc, if_neg (by simp), habandon, ask_eq, goOn_goOn, hacc]
  rfl

theorem linkDown_leaving (env : Surroundings) {d : Address} (h : Consistent t.machine)
    (hleave : t.machine.leaving = some d) :
    Continues (Parted env t.machine d) t (t.linkDown env d) := by
  have hgone : ((t.change fun m => { m with leaving := none }).cancelTimer d).expel d .disconnecting
      = t.goOn ((t.machine.endParting d).farewell d .disconnecting)
          ((t.machine.endParting d).expel d) := by
    simp only [change_eq, cancelTimer, expel_eq, goOn_goOn, machine_goOn]
    rfl
  simp only [linkDown, hleave, if_true, hgone, machine_goOn]
  cases hout : t.machine.outgoing with
  | none =>
      have hout' : ((t.machine.endParting d).expel d).outgoing = none := hout
      simp only [hout']
      exact ⟨_, _, rfl, .vacated hout⟩
  | some o =>
      obtain ⟨e, stage⟩ := o
      cases stage with
      | requested =>
          rw [h.requested hout] at hleave
          exact absurd hleave (by simp)
      | awaitingEviction v =>
          obtain rfl : v = d := Option.some.inj ((h.awaiting hout).symm.trans hleave)
          have hout' : ((t.machine.endParting v).expel v).outgoing
            = some ⟨e, .awaitingEviction v⟩ := hout
          simp only [hout', if_true]
          by_cases hacc : (t.goOn ((t.machine.endParting v).farewell v .disconnecting)
              ((t.machine.endParting v).expel v)).accepts env (.connect e) = true
          · refine ⟨_, _, ?_, .requested hout ⟨_, hacc⟩⟩
            rw [requestAwaited_accepted hacc, goOn_goOn]
            rfl
          · rw [Bool.not_eq_true] at hacc
            refine ⟨_, _, ?_, .refused hout ⟨_, hacc⟩⟩
            rw [requestAwaited_refused hacc hout', goOn_goOn]
            rfl

theorem abandonOutgoing_of_device {d : Address} (hout : t.machine.outgoingDevice = some d) :
    t.abandonOutgoing = t.goOn [.notice (.link d .connecting .disconnected)]
      (t.machine.abandon d) := by
  obtain ⟨o, ho, rfl⟩ := Option.map_eq_some_iff.mp hout
  exact abandonOutgoing_eq ho

theorem linkDown_outgoing (env : Surroundings) {d : Address} (h : Consistent t.machine)
    (hout : t.machine.outgoingDevice = some d) :
    t.linkDown env d = t.goOn [.notice (.link d .connecting .disconnected)]
      (t.machine.abandon d) := by
  have hd := (h.outgoing_fresh hout).1
  have hleave := h.not_leaving hd
  rw [linkDown, if_neg hleave, if_neg hd, if_pos hout]
  exact abandonOutgoing_of_device hout

theorem linkDown_incoming {d : Address} (h : Consistent t.machine)
    (hin : t.machine.incoming = some d) :
    t.linkDown env d = t.goOn [.notice (.link d .connecting .disconnected)]
      (t.machine.lose d) := by
  have hd := h.incoming_fresh hin
  have hleave := h.not_leaving hd
  have hout := h.not_outgoing hin
  rw [linkDown, if_neg hleave, if_neg hd, if_neg hout, if_pos hin]
  simp [change_eq, cancelTimer, forgetFormat, tellLink_eq, Machine.lose]

theorem linkDown_outcome (d : Address) (h : Consistent t.machine) :
    Continues (Outcome env t.machine (.event (.link d .disconnected))) t (t.linkDown env d) := by
  by_cases hleave : t.machine.leaving = some d
  · obtain ⟨es, m', heq, hp⟩ := linkDown_leaving env h hleave
    exact ⟨es, m', heq, .parted hleave hp⟩
  by_cases hd : d ∈ t.machine.members
  · refine ⟨_, _, ?_, .dropped hd hleave⟩
    rw [linkDown, if_neg hleave, if_pos hd, expel_eq]
  by_cases hout : t.machine.outgoingDevice = some d
  · exact ⟨_, _, linkDown_outgoing env h hout, .linkFailed hout⟩
  by_cases hin : t.machine.incoming = some d
  · exact ⟨_, _, linkDown_incoming h hin, .incomingFailed hin⟩
  · rw [linkDown, if_neg hleave, if_neg hd, if_neg hout, if_neg hin]
    exact continues_nothing (.strangerDown hd (Roles.isInFlight_eq_false_iff.mpr ⟨hout, hin⟩))

theorem linkComing_outcome (d : Address) :
    Continues (Outcome env t.machine (.event (.link d .connecting))) t (t.linkComing env d) := by
  unfold linkComing
  split
  · next hknown => exact continues_nothing (.comingKnown hknown)
  next hstrange =>
    obtain ⟨hd, hflight⟩ : d ∉ t.machine.members ∧ t.machine.isInFlight d = false := by
      simpa using hstrange
    split
    · next h =>
      refine ⟨_, _, ?_, .incomingBegun hd hflight h.1 h.2.1 h.2.2⟩
      simp [change_eq, tellLink_eq, startTimer, Machine.receive]
    · next h =>
      exact ⟨_, _, reject_eq .., .comingRejected hd hflight h (answers_accepts ..)⟩

theorem linkUp_outgoing {d : Address} (hout : t.machine.outgoingDevice = some d) :
    Continues (Outcome env t.machine (.event (.link d .connected))) t (t.linkUp env d) := by
  by_cases hroom : t.machine.members.length < t.machine.capacity
  · refine ⟨_, _, ?_, .linked hout hroom⟩
    rw [linkUp, if_pos hout, if_pos hroom]
    simp [change_eq, cancelTimer, enlist_eq, Machine.completeOutgoing]
  · refine ⟨_, _, ?_, .linkedEarly hout hroom (t.answers_accepts ..)⟩
    rw [linkUp, if_pos hout, if_neg hroom,
      abandonOutgoing_of_device (t := t.ask env (.disconnect d)) hout, ask_eq, goOn_goOn]
    rfl

theorem linkUp_incoming {d : Address} (h : Consistent t.machine)
    (hin : t.machine.incoming = some d) :
    Continues (Outcome env t.machine (.event (.link d .connected))) t (t.linkUp env d) := by
  have hout := h.not_outgoing hin
  rw [linkUp, if_neg hout, if_pos hin]
  split
  · next hwhy =>
    refine ⟨_, _, ?_, .incomingLinked hin hwhy.1 hwhy.2⟩
    simp [change_eq, cancelTimer, enlist_eq, Machine.completeIncoming]
  · next hwhy => exact ⟨_, _, ask_eq .., .incomingRefused hin hwhy (answers_accepts ..)⟩

theorem linkUp_leaving {d : Address} (h : Consistent t.machine)
    (hleave : t.machine.leaving = some d) :
    Continues (Outcome env t.machine (.event (.link d .connected))) t (t.linkUp env d) := by
  have hd := h.leaving_member hleave
  obtain ⟨hout, hin⟩ := h.not_inFlight hd
  have hstays : ((t.change fun m => { m with leaving := none }).cancelTimer d).tellLink d
      .disconnecting .connected
      = t.goOn [.notice (.link d .disconnecting .connected)] (t.machine.endParting d) := by
    simp [change_eq, cancelTimer, tellLink_eq, Machine.endParting]
  rw [linkUp, if_neg hout, if_neg hin, if_pos hleave]
  simp only [hstays, machine_goOn]
  cases ho : t.machine.outgoing with
  | none =>
      have ho' : (t.machine.endParting d).outgoing = none := ho
      simp only [ho']
      exact ⟨_, _, rfl, .stayed hleave ho⟩
  | some o =>
      obtain ⟨e, stage⟩ := o
      cases stage with
      | requested =>
          rw [h.requested ho] at hleave
          exact absurd hleave (by simp)
      | awaitingEviction v =>
          obtain rfl : v = d := Option.some.inj ((h.awaiting ho).symm.trans hleave)
          have ho' : (t.machine.endParting v).outgoing = some ⟨e, .awaitingEviction v⟩ := ho
          simp only [ho', if_true]
          refine ⟨_, _, ?_, .stayedAgainst ho⟩
          rw [abandonOutgoing_eq (t := t.goOn _ (t.machine.endParting v)) ho', goOn_goOn]
          rfl

theorem linkUp_outcome (d : Address) (h : Consistent t.machine) :
    Continues (Outcome env t.machine (.event (.link d .connected))) t (t.linkUp env d) := by
  by_cases hout : t.machine.outgoingDevice = some d
  · exact linkUp_outgoing hout
  by_cases hin : t.machine.incoming = some d
  · exact linkUp_incoming h hin
  by_cases hleave : t.machine.leaving = some d
  · exact linkUp_leaving h hleave
  have hflight : t.machine.isInFlight d = false :=
    Roles.isInFlight_eq_false_iff.mpr ⟨hout, hin⟩
  rw [linkUp, if_neg hout, if_neg hin, if_neg hleave]
  split
  · next hd => exact continues_nothing (.upTwice hd hleave)
  next hd =>
    split
    · next hwhy => exact ⟨_, _, enlist_eq .., .admitted hd hflight hwhy.1 hwhy.2⟩
    · next hwhy => exact ⟨_, _, reject_eq .., .upRejected hd hflight hwhy (answers_accepts ..)⟩

theorem streamChanged_outcome (d : Address) (state : StreamState) :
    Continues (Outcome env t.machine (.event (.stream d state))) t (t.streamChanged d state) := by
  unfold streamChanged
  split
  · next hd =>
    split
    · next hplay =>
      split
      · next hon => exact continues_nothing (.playingOn hon hplay)
      · next hsilent =>
        refine ⟨_, _, ?_, .played hd hsilent hplay⟩
        simp [change_eq, tell, emit, goOn]
    · next hquiet => exact ⟨_, _, stopPlaying_eq .., .silenced hd hquiet⟩
  · next hd => exact continues_nothing (.strangeStream hd)

theorem formatChanged_outcome (d : Address) (format : StreamFormat) :
    Continues (Outcome env t.machine (.event (.format d format))) t
      (t.formatChanged d format) := by
  unfold formatChanged
  split
  · next hd =>
    split
    · next hsame => exact continues_nothing (.sameFormat hsame)
    · next hnew =>
      refine ⟨_, _, ?_, .formatSet hd hnew⟩
      simp [change_eq, tell, emit, goOn]
  · next hd =>
    obtain ⟨hd, hflight⟩ : d ∉ t.machine.members ∧ t.machine.isInFlight d = false := by
      simpa using hd
    exact continues_nothing (.strangeFormat hd hflight)

theorem report_outcome (e : StackEvent) (h : Consistent t.machine) :
    Continues (Outcome env t.machine (.event e)) t (t.report env e) := by
  cases e with
  | link d state =>
      cases state with
      | disconnected => exact linkDown_outcome d h
      | connecting => exact linkComing_outcome d
      | connected => exact linkUp_outcome d h
      | disconnecting => exact continues_nothing .goingDown
  | stream d state => exact streamChanged_outcome d state
  | format d format => exact formatChanged_outcome d format
  | permission d => exact ⟨_, _, rfl, .answered⟩

/-! ## Timers -/

theorem parted_disarm {m m' : Machine} {d : Address} {es : List Effect}
    (h : Parted env (m.disarm d) d es m') : Parted env m d es m' := by
  have hsame := m.endParting_disarm d
  cases h with
  | vacated hout => rw [hsame]; exact .vacated hout
  | requested hout hacc => rw [hsame]; exact .requested hout hacc
  | refused hout hacc => rw [hsame]; exact .refused hout hacc

theorem giveUpOutgoing_requested {d : Address}
    (hout : t.machine.outgoing = some ⟨d, .requested⟩) :
    t.giveUpOutgoing env = (t.ask env (.disconnect d)).linkDown env d := by
  simp only [giveUpOutgoing, hout]

theorem giveUpOutgoing_awaiting {d v : Address}
    (hout : t.machine.outgoing = some ⟨d, .awaitingEviction v⟩) :
    t.giveUpOutgoing env = t.abandonOutgoing.settleLeaving env v := by
  simp only [giveUpOutgoing, hout]

theorem linkExpired_outcome {d : Address} {g : Nat} (h : Consistent t.machine)
    (hlive : t.machine.timers.generation? d = some g)
    (hout : t.machine.outgoing = some ⟨d, .requested⟩) :
    Continues (Outcome env t.machine (.timeout d g)) t
      ((t.goOn [] (t.machine.disarm d)).giveUpOutgoing env) := by
  have hdevice : (t.machine.disarm d).outgoingDevice = some d := Roles.outgoingDevice_eq hout
  have hdown := linkDown_outgoing env
    (t := (t.goOn [] (t.machine.disarm d)).ask env (.disconnect d))
    (consistent_disarm d h) hdevice
  refine ⟨_, _, ?_, .linkExpired hlive hout (answers_accepts (t.goOn [] (t.machine.disarm d)) ..)⟩
  rw [giveUpOutgoing_requested (by exact hout), hdown, ask_eq, goOn_goOn, goOn_goOn]
  simp only [machine_goOn, Machine.abandon_disarm]
  rfl

theorem evictionExpired_outcome {d v : Address} {g : Nat} (h : Consistent t.machine)
    (hlive : t.machine.timers.generation? d = some g)
    (hout : t.machine.outgoing = some ⟨d, .awaitingEviction v⟩) :
    Continues (Outcome env t.machine (.timeout d g)) t
      ((t.goOn [] (t.machine.disarm d)).giveUpOutgoing env) := by
  have hgone : (t.goOn [] (t.machine.disarm d)).abandonOutgoing
      = t.goOn [.notice (.link d .connecting .disconnected)] (t.machine.abandon d) := by
    rw [abandonOutgoing_eq (by exact hout), goOn_goOn, machine_goOn, Machine.abandon_disarm]
    rfl
  have hleave : (t.machine.abandon d).leaving = some v := h.awaiting hout
  have hdevice := Roles.outgoingDevice_eq hout
  obtain ⟨es, m', hdown, hp⟩ := linkDown_leaving env
    (t := t.goOn [.notice (.link d .connecting .disconnected)] ((t.machine.abandon d).disarm v))
    (consistent_disarm v (consistent_abandon h hdevice)) hleave
  refine ⟨.notice (.link d .connecting .disconnected) :: es, m', ?_, ?_⟩
  · rw [giveUpOutgoing_awaiting (by exact hout), hgone, settleLeaving, if_pos (by exact hleave),
      cancelTimer, change_eq, goOn_goOn]
    exact hdown.trans (goOn_goOn ..)
  · cases parted_disarm hp with
    | vacated => exact .evictionExpired hlive hout
    | requested hout' => simp [Machine.abandon] at hout'
    | refused hout' => simp [Machine.abandon] at hout'

theorem giveUpOutgoing_outcome {d : Address} {g : Nat} (h : Consistent t.machine)
    (hlive : t.machine.timers.generation? d = some g)
    (hout : t.machine.outgoingDevice = some d) :
    Continues (Outcome env t.machine (.timeout d g)) t
      ((t.goOn [] (t.machine.disarm d)).giveUpOutgoing env) := by
  obtain ⟨⟨e, stage⟩, ho, rfl⟩ := Option.map_eq_some_iff.mp hout
  cases stage with
  | requested => exact linkExpired_outcome h hlive ho
  | awaitingEviction v => exact evictionExpired_outcome h hlive ho

theorem expire_outcome (d : Address) (g : Nat) (h : Consistent t.machine) :
    Continues (Outcome env t.machine (.timeout d g)) t (t.expire env d g) := by
  by_cases hlive : t.machine.timers.generation? d = some g
  · have h₁ := consistent_disarm d h
    have hclaim : t.expire env d g = (t.goOn [] (t.machine.disarm d)).giveUp env d := by
      simp only [expire, Timers.claim?, hlive, if_true, change_eq]
      rfl
    rw [hclaim, giveUp]
    by_cases hout : t.machine.outgoingDevice = some d
    · rw [if_pos (by exact hout)]
      exact giveUpOutgoing_outcome h hlive hout
    rw [if_neg (by exact hout)]
    by_cases hin : t.machine.incoming = some d
    · rw [if_pos (by exact hin), linkDown_incoming
        (t := (t.goOn [] (t.machine.disarm d)).ask env (.disconnect d)) h₁ hin, ask_eq, goOn_goOn,
        goOn_goOn]
      refine ⟨_, _, ?_, .incomingExpired hlive hin
        (answers_accepts (t.goOn [] (t.machine.disarm d)) ..)⟩
      simp only [machine_goOn, Machine.lose_disarm]
      rfl
    rw [if_neg (by exact hin)]
    by_cases hleave : t.machine.leaving = some d
    · obtain ⟨es, m', hdown, hp⟩ := linkDown_leaving env
        (t := t.goOn [] (t.machine.disarm d)) h₁ hleave
      rw [if_pos (by exact hleave), hdown, goOn_goOn]
      exact ⟨es, m', rfl, .partingExpired hlive hleave (parted_disarm hp)⟩
    · rw [if_neg (by exact hleave)]
      have hflight : t.machine.isInFlight d = false :=
        Roles.isInFlight_eq_false_iff.mpr ⟨hout, hin⟩
      exact ⟨_, _, rfl, .nothingExpired hlive hflight hleave⟩
  · have hclaim : t.expire env d g = t := by
      simp only [expire, Timers.claim?, hlive, if_false]
    rw [hclaim]
    exact continues_nothing (.stale hlive)

/-! ## The end -/

theorem dropOutgoing_outcome (env : Surroundings) (t : Turn) :
    Continues (OutgoingDropped env t.machine) t (t.dropOutgoing env) := by
  unfold dropOutgoing
  split
  · next hout => exact ⟨[], t.machine, t.goOn_nil.symm, .absent hout⟩
  · next d stage hout =>
    cases stage with
    | awaitingEviction v =>
        refine ⟨_, _, ?_, .awaiting hout⟩
        simp [change_eq, forgetFormat, tellLink_eq]
    | requested =>
        refine ⟨_, _, ?_, .requested hout
          (answers_accepts (t.goOn [] { t.machine with outgoing := none }) ..)⟩
        simp [change_eq, forgetFormat, tellLink_eq, ask_eq]

theorem dropIncoming_outcome (env : Surroundings) (t : Turn) :
    Continues (IncomingDropped env t.machine) t (t.dropIncoming env) := by
  unfold dropIncoming
  split
  · next hin => exact ⟨[], t.machine, t.goOn_nil.symm, .absent hin⟩
  · next d hin =>
    refine ⟨_, _, ?_, .present hin
      (answers_accepts (t.goOn [] { t.machine with incoming := none }) ..)⟩
    simp [change_eq, forgetFormat, tellLink_eq, ask_eq]

theorem shutDown_outcome (t : Turn) :
    Continues (Outcome env t.machine .shutdown) t (t.shutDown env) := by
  obtain ⟨es, m₁, h₁, hout⟩ := dropOutgoing_outcome env t
  obtain ⟨es', m₂, h₂, hin⟩ := dropIncoming_outcome env (t.goOn es m₁)
  refine ⟨es ++ es', m₂.stop, ?_, .stopped hout hin⟩
  rw [shutDown, h₁, h₂, change_eq, goOn_goOn, goOn_goOn, List.append_nil]
  rfl

/-- **A message comes to one of its outcomes.** -/
theorem process_outcome (env : Surroundings) (t : Turn) (msg : Message) (h : Consistent t.machine) :
    Continues (Outcome env t.machine msg) t (t.process env msg) := by
  cases msg with
  | request r =>
      cases r with
      | connect d => exact connect_outcome d
      | disconnect d => exact disconnect_outcome d
  | event e => exact report_outcome e h
  | timeout d g => exact expire_outcome d g h
  | shutdown => exact shutDown_outcome t

end Turn

end AudioLink
