import AudioLink.Proofs.Capacity
import AudioLink.Proofs.Precedence

/-!
# Requests refused and repeated

A request of the host sets nothing in motion but itself. Of the requests that wait none
follows: a stable machine lets none wait, and a busy machine is not brought to rest by a
request. So what a machine does about a request is what the handler of the request does.

Listeners are told of a change before the stack is asked for it. Where the stack refuses,
they are told that the change is taken back; the machine itself was not touched yet.

Where the stack does not refuse, the request has left its mark: its device is linked or on
its way, or it waits as the last request for its device, or there was nothing to do. Each of
these marks stops the same request when it comes again. `Machine.Absorbs` lists them.
-/

namespace AudioLink

variable {env : Surroundings} {m m' : Machine} {d : Address} {r : Request} {es : List Effect}

/-- **A request sets nothing in motion but itself.** -/
theorem handle_request (env : Surroundings) (r : Request) (hc : Consistent m) (hq : Queued m)
    (hrun : m.stopped = false) :
    m.handle env (.request r) = Turn.submit env { machine := m } r := by
  obtain ⟨es, m₁, heq, ho⟩ := Turn.process_outcome env ⟨m, []⟩ (.request r) hc
  have hidle : m₁.isStable = true → m₁.deferred = [] := by
    intro hstable₁
    cases hstable : m.isStable with
    | true => exact (deferred_outcome hstable ho).1.trans (hq.patient hrun hstable)
    | false => simp [busy_request hc hstable ho] at hstable₁
  have hmachine : (Turn.process env ⟨m, []⟩ (.request r)).machine = m₁ := by
    rw [heq]
    rfl
  rw [Machine.handle, if_neg (by simp [hrun])]
  exact replay_of_patient (hmachine ▸ hidle)

/-! ## A request that is refused -/

/-- What a stable machine asks for when a stranger is to be linked: the link, or, where no
place is left, that the member admitted longest ago goes. -/
def Machine.askedFor (m : Machine) (d : Address) : Option Request :=
  if m.hasRoom then some (.connect d) else m.members.head?.map .disconnect

/-- The link is refused, or the eviction that would make room for it. -/
theorem bringUp_refused (hasked : m.askedFor d = some r) (hrefused : env.accepts 0 r = false) :
    Turn.bringUp env d { machine := m }
      = ⟨m, [.notice (.link d .disconnected .connecting), .request r false m.toRoles,
          .notice (.link d .connecting .disconnected)]⟩ := by
  -- what listeners are told is no request, so the answer is the first of the turn
  have hanswer : (Turn.tellLink d .disconnected .connecting { machine := m }).accepts env r
      = false := hrefused
  unfold Machine.askedFor at hasked
  simp only [Turn.bringUp, Turn.machine_tellLink]
  by_cases hroom : m.hasRoom = true
  · rw [if_pos hroom] at hasked
    obtain rfl := Option.some.inj hasked
    simp only [hroom, Turn.requestLink, Turn.ask, hanswer, Bool.false_eq_true, if_true, if_false]
    rfl
  · rw [if_neg hroom] at hasked
    obtain ⟨v, hv, rfl⟩ := Option.map_eq_some_iff.mp hasked
    obtain ⟨rest, hmembers⟩ := List.head?_eq_some_iff.mp hv
    simp only [hroom, Turn.evictFor, Turn.ask, Turn.machine_tellLink, hmembers, hanswer,
      Bool.false_eq_true, if_false]
    rfl

/-- The parting is refused. -/
theorem takeDown_refused (hrefused : env.accepts 0 (.disconnect d) = false) :
    Turn.takeDown env d { machine := m }
      = ⟨m, [.notice (.link d .connected .disconnecting), .request (.disconnect d) false m.toRoles,
          .notice (.link d .disconnecting .connected)]⟩ := by
  have hanswer : (Turn.tellLink d .connected .disconnecting { machine := m }).accepts env
      (.disconnect d) = false := hrefused
  simp only [Turn.takeDown, Turn.ask, hanswer, Bool.false_eq_true, if_false]
  rfl

/-- **A refused request is taken back completely.** A stable machine is asked to link to a
stranger, and the stack refuses what it is asked for first; or it is asked to take the link of
a member down, and the stack refuses that. Afterwards it is the machine that it was, with all
its roles, streams, timers and what waits. It has made this one request, and listeners were
told that the change begins and then that it is taken back. -/
theorem refused_request_taken_back (capacity : Nat) (timeout : Duration) (policy : Policy)
    (occasions : List (Surroundings × Message)) (env : Surroundings) (d : Address) :
    let m := ((Machine.fresh capacity timeout policy).run occasions).machine
    m.stopped = false → m.isStable = true →
      (∀ r, d ∉ m.members → m.askedFor d = some r → env.accepts 0 r = false →
        m.handle env (.request (.connect d))
          = ⟨m, [.notice (.link d .disconnected .connecting), .request r false m.toRoles,
              .notice (.link d .connecting .disconnected)]⟩)
      ∧ (d ∈ m.members → env.accepts 0 (.disconnect d) = false →
        m.handle env (.request (.disconnect d))
          = ⟨m, [.notice (.link d .connected .disconnecting),
              .request (.disconnect d) false m.toRoles,
              .notice (.link d .disconnecting .connected)]⟩) := by
  intro m hrun hstable
  have hc : Consistent m := consistent_run capacity timeout policy occasions
  have hq : Queued m := queued_run capacity timeout policy occasions
  refine ⟨fun r hd hasked hrefused => ?_, fun hd hrefused => ?_⟩
  · rw [handle_request env _ hc hq hrun, ← Turn.carryOut_eq_submit env ⟨m, []⟩ _ hstable,
      Turn.carryOut, if_neg hd]
    exact bringUp_refused hasked hrefused
  · rw [handle_request env _ hc hq hrun, ← Turn.carryOut_eq_submit env ⟨m, []⟩ _ hstable,
      Turn.carryOut, if_pos hd]
    exact takeDown_refused hrefused

/-- The only place is taken by a device that plays, and the stack refuses to take its link down.
Neither is another device linked in its place, nor does it go when it is told to. -/
theorem refused_requests_taken_back_when_full :
    let accepting := ({} : ScriptedStack).surroundings ({} : Registry).facts
    let first := Address.of 0 0 0 0 0 1
    let second := Address.of 0 0 0 0 0 2
    let refusing :=
      (({} : ScriptedStack).refuse (.disconnect first)).surroundings ({} : Registry).facts
    let occasions : List (Surroundings × Message) :=
      [(accepting, .request (.connect first)), (accepting, .event (.link first .connected)),
        (accepting, .event (.stream first .started))]
    let m := ((Machine.fresh 1 (.ofMillis 30000) ⟨false⟩).run occasions).machine
    (m.stopped = false ∧ m.isStable = true ∧ second ∉ m.members ∧ first ∈ m.members
        ∧ first ∈ m.playing)
      ∧ m.askedFor second = some (.disconnect first)
      ∧ m.handle refusing (.request (.connect second))
        = ⟨m, [.notice (.link second .disconnected .connecting),
            .request (.disconnect first) false m.toRoles,
            .notice (.link second .connecting .disconnected)]⟩
      ∧ m.handle refusing (.request (.disconnect first))
        = ⟨m, [.notice (.link first .connected .disconnecting),
            .request (.disconnect first) false m.toRoles,
            .notice (.link first .disconnecting .connected)]⟩ := by
  intro accepting first second refusing occasions m
  have hrun : m.stopped = false := by decide +kernel
  have hstable : m.isStable = true := by decide +kernel
  have hasked : m.askedFor second = some (.disconnect first) := by decide +kernel
  have hrefused : refusing.accepts 0 (.disconnect first) = false := by decide +kernel
  have hback := fun d =>
    refused_request_taken_back 1 (.ofMillis 30000) ⟨false⟩ occasions refusing d hrun hstable
  exact ⟨⟨hrun, hstable, by decide +kernel⟩, hasked,
    (hback second).1 _ (by decide +kernel) hasked hrefused,
    (hback first).2 (by decide +kernel) hrefused⟩

/-! ## A request that is repeated -/

/-- There is nothing to do about a request, and nothing about it has to be remembered. -/
inductive Machine.Absorbs (m : Machine) : Request → Prop where
  | settled {d : Address} (h : m.isSettled d = true) : m.Absorbs (.connect d)
  | inFlight {d : Address} (h : m.isInFlight d = true) : m.Absorbs (.connect d)
  | leaving {d : Address} (h : m.leaving = some d) : m.Absorbs (.disconnect d)
  | unlinked {d : Address} (hd : d ∉ m.members) (h : m.isInFlight d = false) :
      m.Absorbs (.disconnect d)
  /-- It is the last request for its device that waits. -/
  | waiting {r : Request} (hbusy : m.isStable = false)
      (hwait : m.awaitsEviction r.device = false)
      (h : latestFor r.device m.deferred = some r) : m.Absorbs r

theorem defer_of_latest (h : latestFor r.device m.deferred = some r) :
    Turn.defer r { machine := m } = { machine := m } := by
  rw [Turn.defer, find?_reverse_eq, if_pos h]

/-- A device that waits for a member to go is being linked to. -/
theorem not_awaitsEviction (h : m.isInFlight d = false) : m.awaitsEviction d = false := by
  rw [← Bool.not_eq_true, Roles.awaitsEviction_iff]
  rintro ⟨v, hout⟩
  exact (Roles.isInFlight_eq_false_iff.mp h).1 (Roles.outgoingDevice_eq hout)

/-- What a machine absorbs changes nothing. -/
theorem submit_of_absorbs (env : Surroundings) (h : m.Absorbs r) :
    Turn.submit env { machine := m } r = { machine := m } := by
  cases h with
  | settled h | inFlight h => exact if_pos (by simp [h])
  | leaving h => exact if_pos h
  | @unlinked d hd h =>
      have hwait : m.awaitsEviction d = false := not_awaitsEviction h
      show Turn.disconnect env d _ = _
      simp [Turn.disconnect, hwait, hd, h]
  | waiting hbusy hwait h =>
      cases r with
      | connect d =>
          have hlast : Turn.defer (.connect d) { machine := m } = { machine := m } :=
            defer_of_latest h
          show Turn.connect env d _ = _
          simp [Turn.connect, hbusy, hlast]
      | disconnect d =>
          have hwait : m.awaitsEviction d = false := hwait
          have hlast : Turn.defer (.disconnect d) { machine := m } = { machine := m } :=
            defer_of_latest h
          show Turn.disconnect env d _ = _
          simp [Turn.disconnect, hbusy, hwait, hlast]

/-- A stable machine has a place left, or a member that can make room. -/
theorem members_ne_nil (hcap : 1 ≤ m.capacity) (hstable : m.isStable = true)
    (hfull : m.hasRoom = false) : m.members ≠ [] := by
  intro hnone
  obtain ⟨hout, hin, -⟩ := Roles.isStable_iff.mp hstable
  have hnobody : m.reserved = 0 := by
    simp [Roles.reserved, hnone, hout, hin]
  have hroom : m.hasRoom = true := decide_eq_true (by omega)
  rw [hroom] at hfull
  cases hfull

/-- A machine that was asked for a link absorbs the next request for it. -/
theorem absorbs_connect (hcap : 1 ≤ m.capacity)
    (ho : Outcome env m (.request (.connect d)) es m')
    (haccepted : ∀ q roles, .request q false roles ∉ es) : m'.Absorbs (.connect d) := by
  cases ho with
  | nothing h =>
      cases h with
      | held h => exact h.elim .settled .inFlight
      | repeated hbusy h =>
          cases hflight : m.isInFlight d with
          | true => exact .inFlight hflight
          | false =>
              have hlast := (find?_reverse_eq d m.deferred).symm.trans h
              exact .waiting hbusy (not_awaitsEviction hflight) hlast
  | connectDeferred _ hflight hbusy =>
      exact .waiting hbusy (not_awaitsEviction hflight) (by simp [Request.device])
  | linkRequested | evictionBegun => exact .inFlight (Roles.isInFlight_iff.mpr (Or.inl rfl))
  | noVictim hstable hfull hnone => exact absurd hnone (members_ne_nil hcap hstable hfull)
  | linkRefused | evictionRefused => simp at haccepted

/-- A machine that was asked to take a link down absorbs the next request to. -/
theorem absorbs_disconnect (hwait : m.awaitsEviction d = false)
    (ho : Outcome env m (.request (.disconnect d)) es m')
    (haccepted : ∀ q roles, .request q false roles ∉ es) : m'.Absorbs (.disconnect d) := by
  cases ho with
  | nothing h =>
      cases h with
      | repeated hbusy h => exact .waiting hbusy hwait ((find?_reverse_eq d _).symm.trans h)
      | parting h => exact .leaving h
      | unlinked hd h => exact .unlinked hd h
  | withdrawn hout =>
      rw [Roles.awaitsEviction_iff.mpr ⟨_, hout⟩] at hwait
      cases hwait
  | disconnectDeferred _ _ _ hbusy => exact .waiting hbusy hwait (by simp [Request.device])
  | partingBegun => exact .leaving rfl
  | partingRefused => simp at haccepted

/-- A link that was given up before it was asked for leaves nothing to take down. -/
theorem absorbs_withdrawn (hc : Consistent m) (hwait : m.awaitsEviction d = true) :
    (Turn.disconnect env d { machine := m }).machine.Absorbs (.disconnect d) := by
  obtain ⟨v, hout⟩ := Roles.awaitsEviction_iff.mp hwait
  obtain ⟨hd, hin⟩ := hc.outgoing_fresh (Roles.outgoingDevice_eq hout)
  have hgone : Turn.disconnect env d { machine := m }
      = Turn.goOn [.notice (.link d .connecting .disconnected)] (m.abandon d) ⟨m, []⟩ := by
    rw [Turn.disconnect, if_neg (hc.not_leaving hd), if_pos hwait]
    exact Turn.abandonOutgoing_eq (t := ⟨m, []⟩) hout
  have hnone : (m.abandon d).outgoingDevice ≠ some d := by
    simp [Machine.abandon, Roles.outgoingDevice]
  rw [hgone]
  exact .unlinked hd (Roles.isInFlight_eq_false_iff.mpr ⟨hnone, hin⟩)

/-- **A request leaves a machine that absorbs it**, unless the stack refused something. -/
theorem submit_absorbs (env : Surroundings) (r : Request) (hcap : 1 ≤ m.capacity)
    (hc : Consistent m)
    (haccepted : ∀ q roles, .request q false roles ∉ (Turn.submit env { machine := m } r).effects) :
    (Turn.submit env { machine := m } r).machine.Absorbs r := by
  obtain ⟨es, m', heq, ho⟩ := Turn.process_outcome env ⟨m, []⟩ (.request r) hc
  have heq : Turn.submit env { machine := m } r = ⟨m', es⟩ := heq
  cases r with
  | connect d =>
      rw [heq] at haccepted ⊢
      exact absorbs_connect hcap ho haccepted
  | disconnect d =>
      cases hwait : m.awaitsEviction d with
      | true => exact absorbs_withdrawn hc hwait
      | false =>
          rw [heq] at haccepted ⊢
          exact absorbs_disconnect hwait ho haccepted

/-- **A repeated request is absorbed.** If the stack has refused nothing while a machine with
at least one place handled a request, then handling it once more changes nothing, makes no
request of the stack and tells nobody of anything, whatever the stack would answer now. -/
theorem repeated_request_absorbed (capacity : Nat) (timeout : Duration) (policy : Policy)
    (occasions : List (Surroundings × Message)) (env env' : Surroundings) (r : Request)
    (hcap : 1 ≤ capacity) :
    let m := ((Machine.fresh capacity timeout policy).run occasions).machine
    let t := m.handle env (.request r)
    (∀ q roles, .request q false roles ∉ t.effects) →
      t.machine.handle env' (.request r) = { machine := t.machine } := by
  intro m t haccepted
  have hc : Consistent m := consistent_run capacity timeout policy occasions
  have hq : Queued m := queued_run capacity timeout policy occasions
  have hplaces : m.capacity = capacity :=
    (provided_run capacity timeout policy occasions).capacity_eq
  cases hrun : m.stopped with
  | true =>
      have hsame : t = ⟨m, []⟩ := handle_stopped _ hrun
      rw [hsame]
      exact handle_stopped _ hrun
  | false =>
      have ht : t = Turn.submit env { machine := m } r := handle_request env r hc hq hrun
      have habsorbs : t.machine.Absorbs r := by
        rw [ht] at haccepted ⊢
        exact submit_absorbs env r (hplaces ▸ hcap) hc haccepted
      have hc' : Consistent t.machine := consistent_handle _ hc
      have hq' : Queued t.machine := queued_handle env _ hc hq
      have hrun' : t.machine.stopped = false := running_handle hc hrun (by simp)
      rw [handle_request env' r hc' hq' hrun']
      exact submit_of_absorbs env' habsorbs

/-- The only place is taken, and its holder is on its way out for another device. That device
need not be asked for again. -/
theorem repeated_request_absorbed_in_eviction :
    let env := ({} : ScriptedStack).surroundings ({} : Registry).facts
    let first := Address.of 0 0 0 0 0 1
    let second := Address.of 0 0 0 0 0 2
    let occasions : List (Surroundings × Message) :=
      [(env, .request (.connect first)), (env, .event (.link first .connected))]
    let m := ((Machine.fresh 1 (.ofMillis 30000) ⟨false⟩).run occasions).machine
    let t := m.handle env (.request (.connect second))
    t.machine.outgoing = some ⟨second, .awaitingEviction first⟩
      ∧ (∀ q roles, .request q false roles ∉ t.effects)
      ∧ t.machine.handle env (.request (.connect second)) = { machine := t.machine } := by
  intro env first second occasions m t
  have hevicts : t.machine.outgoing = some ⟨second, .awaitingEviction first⟩ := by decide +kernel
  have heffects : t.effects = [.notice (.link second .disconnected .connecting),
      .request (.disconnect first) true m.toRoles,
      .notice (.link first .connected .disconnecting)] := by decide +kernel
  have haccepted : ∀ q roles, .request q false roles ∉ t.effects := by
    intro q roles
    rw [heffects]
    simp
  exact ⟨hevicts, haccepted,
    repeated_request_absorbed 1 (.ofMillis 30000) ⟨false⟩ occasions env env
      (.connect second) (by decide) haccepted⟩

end AudioLink
