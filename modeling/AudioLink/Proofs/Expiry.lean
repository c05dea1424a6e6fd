import AudioLink.Proofs.Coverage
import AudioLink.Proofs.Queue
import AudioLink.Stack.Scripted

/-!
# Timers bring the machine to rest

The stack may never answer. Then the timers are all that is left to the machine, and each
one that expires may begin something new: the link that waited for a member to go is asked
for, or a request that waited is carried out, and both start timers of their own.

It comes to an end because an expiry takes more than it gives. `Machine.burden` counts an
operation in flight once and a request that waits twice, since a request begins two
operations at most: it evicts one member for the sake of another. An expiry ends an
operation, and a request that is carried out leaves the queue.
-/

namespace AudioLink

variable {env : Surroundings} {m m' : Machine} {d : Address} {es : List Effect}

/-- How many links are being brought up or taken down. -/
def Roles.pendingCount (r : Roles) : Nat :=
  r.outgoing.toList.length + r.incoming.toList.length + r.leaving.toList.length

/-- How many timers may still expire if nothing else happens. -/
def Machine.burden (m : Machine) : Nat :=
  m.pendingCount + 2 * m.deferred.length

theorem Roles.pendingCount_le (r : Roles) : r.pendingCount ≤ 3 := by
  have hout : r.outgoing.toList.length ≤ 1 := Option.length_toList_le
  have hin : r.incoming.toList.length ≤ 1 := Option.length_toList_le
  have hleave : r.leaving.toList.length ≤ 1 := Option.length_toList_le
  unfold pendingCount
  omega

/-! ## What a request adds -/

/-- A request that a stable machine carries out begins two operations at most. -/
theorem pendingCount_request {r : Request} (hstable : m.isStable = true)
    (ho : Outcome env m (.request r) es m') : m'.pendingCount ≤ 2 := by
  have hin : m'.incoming = none := (incoming_request ho).trans (Roles.isStable_iff.mp hstable).2.1
  have hout : m'.outgoing.toList.length ≤ 1 := Option.length_toList_le
  have hleave : m'.leaving.toList.length ≤ 1 := Option.length_toList_le
  simp only [Roles.pendingCount, hin, Option.toList_none, List.length_nil]
  omega

/-- **The requests that are carried out make up for what they begin.** -/
theorem burden_replay {rs : List Request} (hr : Replay env m rs es m') :
    m'.burden ≤ m.burden := by
  induction hr with
  | idle | busy => exact Nat.le_refl _
  | @next m m₁ m₂ r rest _ _ _ _ hstable hqueue ho _ ih =>
      have hcount : m₁.pendingCount ≤ 2 :=
        pendingCount_request (m := { m with deferred := rest }) hstable ho
      have hrest : m₁.deferred = rest :=
        (deferred_outcome (m := { m with deferred := rest }) hstable ho).1
      unfold Machine.burden at ih ⊢
      rw [hrest] at ih
      rw [hqueue, List.length_cons]
      omega

/-- A turn burdens the machine no more than what it did about the message. -/
theorem burden_handle (env : Surroundings) (msg : Message) (hc : Consistent m)
    (hrun : m.stopped = false) :
    ∃ es m₁, Outcome env m msg es m₁ ∧ (m.handle env msg).machine.burden ≤ m₁.burden := by
  obtain ⟨es, m₁, rs, es', m₂, heq, ho, hr⟩ := handle_cases env msg hc hrun
  refine ⟨es, m₁, ho, ?_⟩
  rw [heq]
  exact burden_replay hr

theorem burden_lt (hcount : m'.pendingCount < m.pendingCount) (hqueue : m'.deferred = m.deferred) :
    m'.burden < m.burden := by
  unfold Machine.burden
  rw [hqueue]
  omega

/-! ## What an expiry takes -/

theorem pendingCount_abandon {o : Outgoing} (hout : m.outgoing = some o) :
    (m.abandon d).pendingCount + 1 = m.pendingCount := by
  simp only [Roles.pendingCount, Machine.abandon, hout, Option.toList_none, Option.toList_some,
    List.length_nil, List.length_singleton]
  omega

theorem pendingCount_lose {e : Address} (hin : m.incoming = some e) :
    (m.lose d).pendingCount + 1 = m.pendingCount := by
  simp only [Roles.pendingCount, Machine.lose, hin, Option.toList_none, Option.toList_some,
    List.length_nil, List.length_singleton]
  omega

theorem pendingCount_endParting {e : Address} (hleave : m.leaving = some e) :
    (m.endParting d).pendingCount + 1 = m.pendingCount := by
  simp [Roles.pendingCount, Machine.endParting, hleave]

theorem pendingCount_expel (d : Address) (m : Machine) :
    (m.expel d).pendingCount = m.pendingCount := rfl

/-- A link that waited to be asked for was in flight all the time. -/
theorem pendingCount_awaitLink {o : Outgoing} (hout : m.outgoing = some o) :
    (m.awaitLink d).pendingCount = m.pendingCount := by
  simp [Roles.pendingCount, Machine.awaitLink, hout]

theorem pendingCount_parted (hleave : m.leaving = some d) (hp : Parted env m d es m') :
    m'.pendingCount < m.pendingCount ∧ m'.deferred = m.deferred := by
  have hend := pendingCount_endParting (d := d) hleave
  have hgone := pendingCount_expel d (m.endParting d)
  cases hp with
  | vacated => exact ⟨by omega, rfl⟩
  | @requested e hout =>
      have hasked := pendingCount_awaitLink (m := (m.endParting d).expel d) (d := e) hout
      exact ⟨by omega, rfl⟩
  | @refused e hout =>
      have hgiven := pendingCount_abandon (m := (m.endParting d).expel d) (d := e) hout
      exact ⟨by omega, rfl⟩

/-- **A timer that expires ends an operation**, and leaves the queue alone. -/
theorem pendingCount_expired {g : Nat} (hc : Consistent m) (hpend : m.isPending d)
    (hlive : m.timers.generation? d = some g) (ho : Outcome env m (.timeout d g) es m') :
    m'.pendingCount < m.pendingCount ∧ m'.deferred = m.deferred := by
  cases ho with
  | nothing h =>
      cases h with
      | stale h => exact absurd hlive h
  | @evictionExpired d v _ _ hout =>
      have hgiven := pendingCount_abandon (d := d) hout
      have hend := pendingCount_endParting (m := m.abandon d) (d := v) (hc.awaiting hout)
      have hgone := pendingCount_expel v ((m.abandon d).endParting v)
      exact ⟨by omega, rfl⟩
  | linkExpired _ hout =>
      have hgiven := pendingCount_abandon (d := d) hout
      exact ⟨by omega, rfl⟩
  | incomingExpired _ hin =>
      have hlost := pendingCount_lose (d := d) hin
      exact ⟨by omega, rfl⟩
  | partingExpired _ hleave hp => exact pendingCount_parted hleave hp
  | nothingExpired _ hflight hleave =>
      obtain ⟨hout, hin⟩ := Roles.isInFlight_eq_false_iff.mp hflight
      simp [Roles.isPending, hout, hin, hleave] at hpend

/-- **Every expiry makes the burden less**, whatever is carried out after it. -/
theorem burden_expired {g : Nat} (env : Surroundings) (hc : Consistent m) (hcov : Covered m)
    (hrun : m.stopped = false) (hlive : m.timers.generation? d = some g) :
    (m.handle env (.timeout d g)).machine.burden < m.burden := by
  obtain ⟨es, m₁, ho, hturn⟩ := burden_handle env (.timeout d g) hc hrun
  have hpend : m.isPending d :=
    (hcov.running hrun d).mp (Timers.mem_armed_iff.mpr (by simp [hlive]))
  obtain ⟨hcount, hqueue⟩ := pendingCount_expired hc hpend hlive ho
  calc (m.handle env (.timeout d g)).machine.burden ≤ m₁.burden := hturn
    _ < m.burden := burden_lt hcount hqueue

/-! ## Runs of expiries -/

/-- Timers expire one after another and nothing else happens. Each is armed when it expires,
and the surroundings may be others every time. -/
inductive Machine.Lapses : Machine → Nat → Machine → Prop where
  | none {m : Machine} : Lapses m 0 m
  | more {m m' : Machine} {n : Nat} {d : Address} {g : Nat} (env : Surroundings)
      (hlive : m.timers.generation? d = some g)
      (h : Lapses (m.handle env (.timeout d g)).machine n m') : Lapses m (n + 1) m'

/-- A machine at work that is in order, with its timers and its queue. -/
structure Ticking (m : Machine) : Prop where
  consistent : Consistent m
  covered : Covered m
  queued : Queued m
  running : m.stopped = false

theorem ticking_expired {g : Nat} (env : Surroundings) (d : Address) (h : Ticking m) :
    Ticking (m.handle env (.timeout d g)).machine where
  consistent := consistent_handle _ h.consistent
  covered := covered_handle env _ h.consistent h.covered
  queued := queued_handle env _ h.consistent h.queued
  running := running_handle h.consistent h.running (by simp)

/-- The burden bounds how many timers can expire. -/
theorem burden_lapses {n : Nat} (hl : m.Lapses n m') (h : Ticking m) :
    Ticking m' ∧ n + m'.burden ≤ m.burden := by
  induction hl with
  | none => exact ⟨h, by omega⟩
  | more env hlive _ ih =>
      obtain ⟨h', hle⟩ := ih (ticking_expired env _ h)
      have hlt := burden_expired env h.consistent h.covered h.running hlive
      exact ⟨h', by omega⟩

/-- A machine without timers has nothing left to do. -/
theorem Ticking.rests (h : Ticking m) (hnone : ∀ d, m.timers.generation? d = none) :
    m.isStable = true ∧ m.deferred = [] := by
  have hpend : ∀ d, ¬m.isPending d := fun d hd =>
    Timers.mem_armed_iff.mp ((h.covered.running h.running d).mpr hd) (hnone d)
  have hstable : m.isStable = true := by
    refine Roles.isStable_iff.mpr ⟨?_, ?_, ?_⟩
    · refine Option.eq_none_iff_forall_ne_some.mpr fun o ho => hpend o.device (Or.inl ?_)
      exact Roles.outgoingDevice_eq ho
    · exact Option.eq_none_iff_forall_ne_some.mpr fun d hd => hpend d (Or.inr (Or.inl hd))
    · exact Option.eq_none_iff_forall_ne_some.mpr fun d hd => hpend d (Or.inr (Or.inr hd))
  exact ⟨hstable, h.queued.patient h.running hstable⟩

theorem Roles.activity_of_stable {r : Roles} (h : r.isStable = true) :
    r.activity = .idle ∨ r.activity = .connected := by
  have hactivity : r.activity.isStable = true := r.isStable_activity.trans h
  cases hr : r.activity with
  | idle => exact Or.inl rfl
  | connected => exact Or.inr rfl
  | pending | admissionPending =>
      rw [hr] at hactivity
      cases hactivity

/-- **The timers bring a machine to rest by themselves**, whatever the stack answers. No more
of them can expire than three and two for every request that waits, and when none is armed
any more, nothing is in flight and nothing waits. -/
theorem timers_bring_to_rest (capacity : Nat) (timeout : Duration) (policy : Policy)
    (occasions : List (Surroundings × Message)) :
    let m := ((Machine.fresh capacity timeout policy).run occasions).machine
    m.stopped = false → ∀ n m', m.Lapses n m' →
      n ≤ 2 * m.deferred.length + 3
        ∧ ((∀ d, m'.timers.generation? d = none) →
            (m'.activity = .idle ∨ m'.activity = .connected) ∧ m'.deferred = []) := by
  intro m hrun n m' hl
  have h : Ticking m :=
    { consistent := consistent_run capacity timeout policy occasions
      covered := covered_run capacity timeout policy occasions
      queued := queued_run capacity timeout policy occasions
      running := hrun }
  obtain ⟨h', hle⟩ := burden_lapses hl h
  have hcount : m.pendingCount ≤ 3 := m.pendingCount_le
  refine ⟨by unfold Machine.burden at hle; omega, fun hnone => ?_⟩
  obtain ⟨hstable, hqueue⟩ := h'.rests hnone
  exact ⟨Roles.activity_of_stable hstable, hqueue⟩

/-- The only member never goes, the one that it makes way for never comes, and neither does
the one that waits: three timers expire. -/
theorem timers_bring_to_rest_after_eviction :
    let env := ({} : ScriptedStack).surroundings ({} : Registry).facts
    let first := Address.of 0 0 0 0 0 1
    let second := Address.of 0 0 0 0 0 2
    let third := Address.of 0 0 0 0 0 3
    let m := ((Machine.fresh 1 (.ofMillis 30000) ⟨false⟩).run
      [(env, .request (.connect first)), (env, .event (.link first .connected)),
        (env, .request (.connect second)), (env, .request (.connect third))]).machine
    m.stopped = false ∧ m.deferred.length = 1
      ∧ ∃ m', m.Lapses 3 m' ∧ 3 ≤ 2 * m.deferred.length + 3
        ∧ (m'.activity = .idle ∨ m'.activity = .connected) ∧ m'.deferred = [] := by
  intro env first second third m
  have hrun : m.stopped = false := by decide +kernel
  have hlapses : m.Lapses 3 _ := .more (d := first) (g := 2) env (by decide +kernel)
    (.more (d := second) (g := 4) env (by decide +kernel)
      (.more (d := third) (g := 5) env (by decide +kernel) .none))
  obtain ⟨hle, hrest⟩ := timers_bring_to_rest 1 (.ofMillis 30000) ⟨false⟩ _ hrun 3 _ hlapses
  have hempty : ∀ {t : Timers}, t.armed = ∅ → ∀ d, t.generation? d = none :=
    fun harmed d => by simp [Timers.generation?, harmed]
  exact ⟨hrun, by decide +kernel, _, hlapses, hle, hrest (hempty (by decide +kernel))⟩

end AudioLink
