import AudioLink.Proofs.Queue
import AudioLink.Stack.Scripted

/-!
# When an earlier request has the last word

Requests for a device should take effect in the order in which they are made. Those that
wait do. But whether a request has to wait, and whether there is anything to do about it at
all, is found out from the roles alone, while an earlier request for the same device may
still wait. A request that is dropped because the roles already are as it wants them leaves
the earlier one behind as the latest, and that one will be carried out.

This module says exactly when: `latestFor` is the request that would have the last word.
-/

namespace AudioLink

variable {env : Surroundings} {m m' : Machine} {d : Address} {es : List Effect}

/-! ## A request to a busy machine -/

/-- A request does not bring a busy machine to rest: giving up a link that waits for a
member to go still leaves the member on its way out. -/
theorem busy_request (hc : Consistent m) (hbusy : m.isStable = false)
    (ho : Outcome env m (.request r) es m') : m'.isStable = false := by
  cases ho with
  | nothing | connectDeferred | disconnectDeferred => exact hbusy
  | @withdrawn d v hout =>
      have hleave : (m.abandon d).leaving = some v := hc.awaiting hout
      simp [Roles.isStable, hleave]
  | linkRefused hstable | linkRequested hstable | noVictim hstable | evictionRefused hstable
  | evictionBegun hstable | partingRefused hstable | partingBegun hstable =>
      simp [hbusy] at hstable

/-- Nothing is carried out of the queue after a request to a busy machine. -/
theorem handle_busy (env : Surroundings) (r : Request) (hc : Consistent m)
    (hrun : m.stopped = false) (hbusy : m.isStable = false) :
    ∃ es, Outcome env m (.request r) es (m.handle env (.request r)).machine := by
  obtain ⟨es, m₁, rs, es', m₂, heq, ho, hr⟩ := handle_cases env (.request r) hc hrun
  have hbusy₁ := busy_request hc hbusy ho
  rw [heq]
  cases hr with
  | idle | busy => exact ⟨es, ho⟩
  | next _ hstable₁ => simp [hbusy₁] at hstable₁

/-- Nothing waits after a request to a stable machine for which nothing has waited. -/
theorem deferred_handle_stable (env : Surroundings) (r : Request) (hc : Consistent m)
    (hrun : m.stopped = false) (hstable : m.isStable = true) (hnone : m.deferred = []) :
    (m.handle env (.request r)).machine.deferred = [] := by
  obtain ⟨es, m₁, rs, es', m₂, heq, ho, hr⟩ := handle_cases env (.request r) hc hrun
  have hnone₁ : m₁.deferred = [] := (deferred_outcome hstable ho).1.trans hnone
  rw [heq]
  cases hr with
  | idle | busy => exact hnone₁
  | next _ _ hqueue => simp [hnone₁] at hqueue

/-! ## Who has the last word -/

/-- **A disconnect leaves the last word to an earlier connect** exactly if it finds the
device on its way out, withdraws the link that waits for a member to go, or finds no link. -/
theorem latest_disconnect (hbusy : m.isStable = false)
    (ho : Outcome env m (.request (.disconnect d)) es m') :
    latestFor d m'.deferred = some (.connect d) ↔ latestFor d m.deferred = some (.connect d)
      ∧ (m.leaving = some d ∨ m.awaitsEviction d = true
        ∨ (d ∉ m.members ∧ m.isInFlight d = false)) := by
  cases ho with
  | nothing h =>
      cases h with
      | repeated _ hsame =>
          have hlatest : latestFor d m.deferred = some (.disconnect d) :=
            (find?_reverse_eq d _).symm.trans hsame
          simp [hlatest]
      | parting hleave => simp [hleave]
      | unlinked hd hflight => simp [hd, hflight]
  | @withdrawn d v hout =>
      have hwait : m.awaitsEviction d = true := Roles.awaitsEviction_iff.mpr ⟨v, hout⟩
      simp [Machine.abandon, hwait]
  | disconnectDeferred hleave hwait hd =>
      have hlink : ¬(d ∉ m.members ∧ m.isInFlight d = false) := by
        rintro ⟨hd', hflight⟩
        simp [hd', hflight] at hd
      simp [Request.device, hleave, hwait, hlink]
  | partingRefused hstable | partingBegun hstable => simp [hbusy] at hstable

/-- **A connect leaves the last word to an earlier disconnect** exactly if it finds a member
that stays, or a link that is being brought up. -/
theorem latest_connect (hbusy : m.isStable = false)
    (ho : Outcome env m (.request (.connect d)) es m') :
    latestFor d m'.deferred = some (.disconnect d)
      ↔ latestFor d m.deferred = some (.disconnect d)
        ∧ (m.isSettled d = true ∨ m.isInFlight d = true) := by
  cases ho with
  | nothing h =>
      cases h with
      | repeated _ hsame =>
          have hlatest : latestFor d m.deferred = some (.connect d) :=
            (find?_reverse_eq d _).symm.trans hsame
          simp [hlatest]
      | held h => simp [h]
  | connectDeferred hd hflight => simp [Request.device, hd, hflight]
  | linkRefused hstable | linkRequested hstable | noVictim hstable | evictionRefused hstable
  | evictionBegun hstable => simp [hbusy] at hstable

/-- **When the earlier of two requests for a device has the last word.** After a disconnect
was handled, the latest request for the device that waits is a connect exactly if it was so
before and the disconnect was dropped: the device is on its way out or has no link, or its
link was only waiting for a member to go. After a connect it is a disconnect exactly if it
was so before and the device is a member that stays, or its link is being brought up. -/
theorem earlier_request_prevails_iff (capacity : Nat) (timeout : Duration) (policy : Policy)
    (occasions : List (Surroundings × Message)) (env : Surroundings) (d : Address) :
    let m := ((Machine.fresh capacity timeout policy).run occasions).machine
    (latestFor d (m.handle env (.request (.disconnect d))).machine.deferred = some (.connect d)
        ↔ latestFor d m.deferred = some (.connect d)
          ∧ (m.leaving = some d ∨ m.awaitsEviction d = true
            ∨ (d ∉ m.members ∧ m.isInFlight d = false)))
      ∧ (latestFor d (m.handle env (.request (.connect d))).machine.deferred
          = some (.disconnect d)
        ↔ latestFor d m.deferred = some (.disconnect d)
          ∧ (m.isSettled d = true ∨ m.isInFlight d = true)) := by
  intro m
  have hc : Consistent m := consistent_run capacity timeout policy occasions
  have hq : Queued m := queued_run capacity timeout policy occasions
  cases hrun : m.stopped with
  | true =>
      rw [handle_stopped _ hrun, handle_stopped _ hrun]
      simp [hq.cleared hrun]
  | false =>
      cases hstable : m.isStable with
      | true =>
          -- nothing waits for a stable machine, neither before nor after
          have hnone := hq.patient hrun hstable
          have hstill := fun r => deferred_handle_stable env r hc hrun hstable hnone
          simp [hnone, hstill]
      | false =>
          obtain ⟨es, hdown⟩ := handle_busy env (.disconnect d) hc hrun hstable
          obtain ⟨es', hup⟩ := handle_busy env (.connect d) hc hrun hstable
          exact ⟨latest_disconnect hstable hdown, latest_connect hstable hup⟩

/-- A device is asked for while another link is being brought up, and given up before its
turn comes. It is linked all the same, and stays. A member is to go once another has gone,
and is asked for again before its turn comes. It goes all the same. -/
theorem earlier_requests_prevail :
    let env := ({} : ScriptedStack).surroundings ({} : Registry).facts
    let first := Address.of 0 0 0 0 0 1
    let second := Address.of 0 0 0 0 0 2
    let start := Machine.fresh 2 (.ofMillis 30000) ⟨false⟩
    let both : List (Surroundings × Message) :=
      [(env, .event (.link first .connected)), (env, .event (.link second .connected))]
    let asked := (start.run [(env, .request (.connect first)), (env, .request (.connect second))])
    let givenUp := asked.machine.handle env (.request (.disconnect second))
    let linked := (givenUp.machine.run both).machine
    let told := (linked.run
      [(env, .request (.disconnect first)), (env, .request (.disconnect second))]).machine
    let kept := told.handle env (.request (.connect second))
    let parted := (kept.machine.run [(env, .event (.link first .disconnected)),
      (env, .event (.link second .disconnected))]).machine
    latestFor second givenUp.machine.deferred = some (.connect second)
      ∧ linked.members = [first, second] ∧ linked.isStable = true
      ∧ latestFor second kept.machine.deferred = some (.disconnect second)
      ∧ parted.members = [] ∧ parted.isStable = true := by
  decide +kernel

end AudioLink
