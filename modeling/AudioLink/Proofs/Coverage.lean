import AudioLink.Proofs.Run

/-!
# Every operation in flight has its timer

Timers are started and cancelled apart from the roles, in every handler by itself.
`Covered` says that the two never come apart: a timer is armed for exactly the devices
whose link is being brought up or taken down, and for none once the machine has stopped.

A missing timer would leave the machine waiting forever; one too many would later tear
down a link that is up.
-/

namespace AudioLink

variable {env : Surroundings} {m m' : Machine} {d e v : Address} {es : List Effect}

/-- Something is in flight for the device. -/
def Roles.isPending (r : Roles) (d : Address) : Prop :=
  r.outgoingDevice = some d ∨ r.incoming = some d ∨ r.leaving = some d

/-- A timer is armed for exactly the devices for which something is in flight. -/
def Covers (m : Machine) : Prop :=
  ∀ d, d ∈ m.timers.armed ↔ m.isPending d

/-- A machine at work covers its roles, and a stopped one has no timer. -/
structure Covered (m : Machine) : Prop where
  /-- While the machine is at work. -/
  running : m.stopped = false → Covers m
  /-- Once the machine has stopped. -/
  stopped : m.stopped = true → m.timers.armed = ∅

namespace Timers

theorem mem_armed_start {duration : Duration} {t : Timers} :
    e ∈ (t.start d duration).armed ↔ d = e ∨ e ∈ t.armed := by
  simp [start]

theorem mem_armed_cancel {t : Timers} : e ∈ (t.cancel d).armed ↔ d ≠ e ∧ e ∈ t.armed := by
  simp [cancel]

/-- A timer is armed if it has a generation that counts. -/
theorem mem_armed_iff {t : Timers} : d ∈ t.armed ↔ t.generation? d ≠ none := by
  rw [Std.ExtTreeMap.mem_iff_isSome_getElem?, generation?]
  cases t.armed[d]? <;> simp

end Timers

/-! ## What the changes keep -/

/-- An operation that begins has its timer started. -/
theorem covers_start {duration : Duration} (h : Covers m)
    (htimers : m'.timers = m.timers.start d duration)
    (hpending : ∀ e, m'.isPending e ↔ d = e ∨ m.isPending e) : Covers m' := by
  intro e
  rw [htimers, Timers.mem_armed_start, h e, hpending]

/-- An operation that ends has its timer cancelled. -/
theorem covers_cancel (h : Covers m) (htimers : m'.timers = m.timers.cancel d)
    (hpending : ∀ e, m'.isPending e ↔ d ≠ e ∧ m.isPending e) : Covers m' := by
  intro e
  rw [htimers, Timers.mem_armed_cancel, h e, hpending]

theorem covers_awaitLink (h : Covers m) (hout : ∀ {e}, m.outgoingDevice = some e → e = d) :
    Covers (m.awaitLink d) := by
  refine covers_start h rfl fun e => ?_
  constructor
  · intro he
    rcases he with he | he
    · exact Or.inl (Option.some.inj he)
    · exact Or.inr (Or.inr he)
  · intro he
    rcases he with rfl | ho | he
    · exact Or.inl rfl
    · exact Or.inl (by rw [hout ho]; rfl)
    · exact Or.inr he

theorem covers_abandon (h : Covers m) (ho : Orderly m) (hout : m.outgoingDevice = some d) :
    Covers (m.abandon d) := by
  obtain ⟨hd, hin⟩ := ho.outgoing_fresh hout
  have hleave := ho.not_leaving hd
  refine covers_cancel h rfl fun e => ?_
  constructor
  · intro he
    rcases he with he | he | he
    · simp [Machine.abandon, Roles.outgoingDevice] at he
    · exact ⟨fun hde => hin (hde ▸ he), Or.inr (Or.inl he)⟩
    · exact ⟨fun hde => hleave (hde ▸ he), Or.inr (Or.inr he)⟩
  · intro he
    rcases he with ⟨hne, he | he⟩
    · exact absurd (Option.some.inj (hout.symm.trans he)) hne
    · exact Or.inr he

theorem covers_receive (h : Covers m) (hin : m.incoming = none) : Covers (m.receive d) := by
  refine covers_start h rfl fun e => ?_
  constructor
  · intro he
    rcases he with he | he | he
    · exact Or.inr (Or.inl he)
    · exact Or.inl (Option.some.inj he)
    · exact Or.inr (Or.inr (Or.inr he))
  · intro he
    rcases he with rfl | he | he | he
    · exact Or.inr (Or.inl rfl)
    · exact Or.inl he
    · simp [hin] at he
    · exact Or.inr (Or.inr he)

theorem covers_lose (h : Covers m) (ho : Orderly m) (hin : m.incoming = some d) :
    Covers (m.lose d) := by
  have hout := ho.not_outgoing hin
  have hleave := ho.not_leaving (ho.incoming_fresh hin)
  refine covers_cancel h rfl fun e => ?_
  constructor
  · intro he
    rcases he with he | he | he
    · exact ⟨fun hde => hout (hde ▸ he), Or.inl he⟩
    · simp [Machine.lose] at he
    · exact ⟨fun hde => hleave (hde ▸ he), Or.inr (Or.inr he)⟩
  · intro he
    rcases he with ⟨hne, he | he | he⟩
    · exact Or.inl he
    · exact absurd (Option.some.inj (hin.symm.trans he)) hne
    · exact Or.inr (Or.inr he)

theorem covers_beginParting (h : Covers m) (hleave : m.leaving = none) :
    Covers (m.beginParting d) := by
  refine covers_start h rfl fun e => ?_
  constructor
  · intro he
    rcases he with he | he | he
    · exact Or.inr (Or.inl he)
    · exact Or.inr (Or.inr (Or.inl he))
    · exact Or.inl (Option.some.inj he)
  · intro he
    rcases he with rfl | he | he | he
    · exact Or.inr (Or.inr rfl)
    · exact Or.inl he
    · exact Or.inr (Or.inl he)
    · simp [hleave] at he

/-- An eviction is a parting whose place is taken at once, with a second timer. -/
theorem covers_beginEviction (h : Covers m) (hout : m.outgoing = none) (hleave : m.leaving = none) :
    Covers (m.beginEviction v d) := by
  refine covers_start (covers_beginParting (d := v) h hleave) rfl fun e => ?_
  constructor
  · intro he
    rcases he with he | he
    · exact Or.inl (Option.some.inj he)
    · exact Or.inr (Or.inr he)
  · intro he
    rcases he with rfl | he | he
    · exact Or.inl rfl
    · simp [Machine.beginParting, Roles.outgoingDevice, hout] at he
    · exact Or.inr he

theorem covers_endParting (h : Covers m) (ho : Orderly m) (hleave : m.leaving = some d) :
    Covers (m.endParting d) := by
  obtain ⟨hout, hin⟩ := ho.not_inFlight (ho.leaving_member hleave)
  refine covers_cancel h rfl fun e => ?_
  constructor
  · intro he
    rcases he with he | he | he
    · exact ⟨fun hde => hout (hde ▸ he), Or.inl he⟩
    · exact ⟨fun hde => hin (hde ▸ he), Or.inr (Or.inl he)⟩
    · simp [Machine.endParting] at he
  · intro he
    rcases he with ⟨hne, he | he | he⟩
    · exact Or.inl he
    · exact Or.inr (Or.inl he)
    · exact absurd (Option.some.inj (hleave.symm.trans he)) hne

theorem covers_completeOutgoing (h : Covers m) (ho : Orderly m) (hout : m.outgoingDevice = some d) :
    Covers (m.completeOutgoing d) :=
  covers_abandon h ho hout

theorem covers_completeIncoming (h : Covers m) (ho : Orderly m) (hin : m.incoming = some d) :
    Covers (m.completeIncoming d) :=
  covers_lose h ho hin

/-- A timer that is armed for nothing can be cancelled. -/
theorem covers_disarm (h : Covers m) (hd : ¬m.isPending d) : Covers (m.disarm d) := by
  refine covers_cancel h rfl fun e => ?_
  constructor
  · exact fun he => ⟨fun hde => hd (hde ▸ he), he⟩
  · exact And.right

theorem covers_parted (h : Covers m) (hc : Consistent m) (hleave : m.leaving = some d)
    (hp : Parted env m d es m') : Covers m' := by
  have hgone : Covers ((m.endParting d).expel d) := covers_endParting h hc.toOrderly hleave
  have ho : Orderly ((m.endParting d).expel d) := orderly_parted hc.toOrderly
  cases hp with
  | vacated => exact hgone
  | requested hout =>
      have hdevice := Roles.outgoingDevice_eq hout
      exact covers_awaitLink hgone fun he => Option.some.inj (Eq.trans he.symm hdevice)
  | refused hout => exact covers_abandon hgone ho (Roles.outgoingDevice_eq hout)

theorem covers_outcome {msg : Message} (h : Covers m) (hc : Consistent m)
    (hmsg : msg ≠ .shutdown) (ho : Outcome env m msg es m') : Covers m' := by
  have ho' := hc.toOrderly
  cases ho with
  | linkRequested hstable =>
      obtain ⟨hout, _, _⟩ := Roles.isStable_iff.mp hstable
      exact covers_awaitLink h (by simp [Roles.outgoingDevice, hout])
  | evictionBegun hstable =>
      obtain ⟨hout, _, hleave⟩ := Roles.isStable_iff.mp hstable
      exact covers_beginEviction h hout hleave
  | withdrawn hout => exact covers_abandon h ho' (Roles.outgoingDevice_eq hout)
  | partingBegun hstable =>
      exact covers_beginParting h (Roles.isStable_iff.mp hstable).2.2
  | parted hleave hp | partingExpired _ hleave hp => exact covers_parted h hc hleave hp
  | linkFailed hout | linkedEarly hout => exact covers_abandon h ho' hout
  | incomingFailed hin | incomingExpired _ hin => exact covers_lose h ho' hin
  | incomingBegun _ _ hin => exact covers_receive h hin
  | linked hout => exact covers_completeOutgoing h ho' hout
  | incomingLinked hin => exact covers_completeIncoming h ho' hin
  | stayed hleave => exact covers_endParting h ho' hleave
  | stayedAgainst hout =>
      have hstay := covers_endParting h ho' (hc.awaiting hout)
      exact covers_abandon hstay (orderly_endParting ho') (Roles.outgoingDevice_eq hout)
  -- the timer of the device was the one that ran, the timer of the victim is disarmed
  | evictionExpired _ hout =>
      have hgone := covers_abandon h ho' (Roles.outgoingDevice_eq hout)
      have ho₁ := orderly_abandon ho' (Roles.outgoingDevice_eq hout)
      exact covers_endParting hgone ho₁ (hc.awaiting hout)
  | linkExpired _ hout => exact covers_abandon h ho' (Roles.outgoingDevice_eq hout)
  | nothingExpired _ hflight hleave =>
      obtain ⟨hout, hin⟩ := Roles.isInFlight_eq_false_iff.mp hflight
      exact covers_disarm h (by simp [Roles.isPending, hout, hin, hleave])
  | stopped => exact absurd rfl hmsg
  | _ => exact h

/-! ## What every run keeps -/

theorem covered_fresh (capacity : Nat) (timeout : Duration) (policy : Policy) :
    Covered (.fresh capacity timeout policy) where
  running := by
    intro _ d
    simp [Machine.fresh, Roles.isPending, Roles.outgoingDevice]
  stopped := fun _ => rfl

theorem covered_outcome {msg : Message} (h : Covered m) (hc : Consistent m)
    (hrun : m.stopped = false) (ho : Outcome env m msg es m') : Covered m' := by
  by_cases hmsg : msg = .shutdown
  · obtain ⟨hstop, _, harmed⟩ := shutdown_outcome (hmsg ▸ ho)
    exact ⟨fun hrun' => by rw [hstop] at hrun'; exact absurd hrun' (by simp), fun _ => harmed⟩
  · have hrun' : m'.stopped = false := (stopped_outcome hmsg ho).trans hrun
    refine ⟨fun _ => covers_outcome (h.running hrun) hc hmsg ho, fun hstop => ?_⟩
    rw [hrun'] at hstop
    exact absurd hstop (by simp)

theorem covered_handle (env : Surroundings) (msg : Message) (hc : Consistent m) (h : Covered m) :
    Covered (m.handle env msg).machine :=
  (handle_keeps (I := fun _ m => Covered m) (fun _ h => { h with })
    (fun hc hrun h ho => covered_outcome h hc hrun ho) env msg [] hc h).2

theorem covered_run (capacity : Nat) (timeout : Duration) (policy : Policy)
    (occasions : List (Surroundings × Message)) :
    Covered ((Machine.fresh capacity timeout policy).run occasions).machine :=
  machine_run_keeps capacity timeout policy occasions (covered_fresh capacity timeout policy)
    covered_handle

theorem armed_eq_empty_iff {t : Timers} : t.armed = ∅ ↔ ∀ d, d ∉ t.armed := by
  rw [Std.ExtTreeMap.eq_empty_iff_forall_not_mem]

/-- Only a machine at work has timers. -/
theorem Covered.running_of_live {g : Nat} (h : Covered m)
    (hlive : m.timers.generation? d = some g) : m.stopped = false := by
  refine Bool.eq_false_iff.mpr fun hstop => ?_
  have hnone := armed_eq_empty_iff.mp (h.stopped hstop) d
  exact hnone (Timers.mem_armed_iff.mpr (by simp [hlive]))

/-- Nothing is timed where nothing is in flight. -/
theorem Covered.armed_of_stable (h : Covered m) (hstable : m.isStable = true) :
    m.timers.armed = ∅ := by
  cases hstop : m.stopped with
  | true => exact h.stopped hstop
  | false =>
      obtain ⟨hout, hin, hleave⟩ := Roles.isStable_iff.mp hstable
      refine armed_eq_empty_iff.mpr fun d hd => ?_
      have hpending := (h.running hstop d).mp hd
      simp [Roles.isPending, Roles.outgoingDevice, hout, hin, hleave] at hpending

/-- **After every message, a timer is armed for exactly the devices for which something is
in flight**; a stopped machine has no timer, and neither has a stable one. -/
theorem timers_armed_for_pending (capacity : Nat) (timeout : Duration) (policy : Policy)
    (occasions : List (Surroundings × Message)) :
    let m := ((Machine.fresh capacity timeout policy).run occasions).machine
    (m.stopped = false → ∀ d, d ∈ m.timers.armed ↔
        m.outgoingDevice = some d ∨ m.incoming = some d ∨ m.leaving = some d)
      ∧ (m.stopped = true → m.timers.armed = ∅)
      ∧ (m.isStable = true → m.timers.armed = ∅) := by
  intro m
  have h : Covered m := covered_run capacity timeout policy occasions
  exact ⟨fun hrun d => h.running hrun d, h.stopped, h.armed_of_stable⟩

end AudioLink
