import AudioLink.Proofs.Slots
import AudioLink.Stack.Scripted

/-!
# Nobody takes a place that is spoken for

Places are counted in two ways. A device that comes of its own accord needs a place beside
all that are reserved; a device whose link was being brought up only needs the members to
be fewer than the capacity. The second is enough because its place was reserved when it
began, and `Fits` says that it still is.

An eviction is the exception: the device that is to be linked and the member that goes for
it share one place. Until the member has gone nobody can come of his own accord unless
there is a place beside both, so only one shared place is ever needed.
-/

namespace AudioLink

variable {env : Surroundings} {m m' : Machine} {d v : Address} {es : List Effect}

/-- The member that is going to make room for the outgoing link. -/
def Roles.victim (r : Roles) : Option Address :=
  match r.outgoing with
  | some ⟨_, .awaitingEviction v⟩ => some v
  | _ => none

theorem Roles.victim_eq_some {r : Roles} (h : r.victim = some v) :
    ∃ d, r.outgoing = some ⟨d, .awaitingEviction v⟩ := by
  unfold victim at h
  split at h
  · next d _ hout => exact ⟨d, by rw [hout, Option.some.inj h]⟩
  · simp at h

/-- The places are enough for the members, and for everybody with a place reserved unless
two of them share one. -/
structure Fits (m : Machine) : Prop where
  /-- Every member has a place. -/
  members : m.members.length ≤ m.capacity
  /-- Every link that is being brought up has one beside them, or waits for the victim's. -/
  reserved : m.reserved ≤ m.capacity ∨ (m.victim ≠ none ∧ m.incoming = none)

/-! ## What the changes keep -/

/-- Where a place is left for everybody, all is well. -/
theorem fits_of_reserved (h : m.reserved ≤ m.capacity) : Fits m := by
  refine ⟨?_, Or.inl h⟩
  unfold Roles.reserved at h
  omega

/-- A place that is left can be taken. -/
theorem fits_of_room (hroom : m.hasRoom = true) (hcap : m'.capacity = m.capacity)
    (hres : m'.reserved ≤ m.reserved + 1) : Fits m' := by
  have hroom : m.reserved < m.capacity := of_decide_eq_true hroom
  exact fits_of_reserved (by omega)

theorem reserved_awaitLink (d : Address) (m : Machine) :
    (m.awaitLink d).reserved = m.members.length + 1 + m.incoming.toList.length := rfl

/-- Nothing is wrong with a change that brings nobody in. -/
theorem fits_of_le (h : Fits m) (hcap : m'.capacity = m.capacity)
    (hmem : m'.members.length ≤ m.members.length) (hout : m'.outgoing = m.outgoing)
    (hin : m'.incoming = m.incoming) : Fits m' := by
  refine ⟨by have := h.members; omega, ?_⟩
  rcases h.reserved with hres | ⟨hv, hnone⟩
  · refine Or.inl ?_
    unfold Roles.reserved at *
    rw [hout, hin]
    omega
  · exact Or.inr ⟨by rwa [Roles.victim, hout], by rw [hin, hnone]⟩

/-- A link that is given up frees its place. -/
theorem fits_dropped (h : Fits m) (hcap : m'.capacity = m.capacity)
    (hmem : m'.members = m.members) (hout : m'.outgoing = none)
    (hin : m'.incoming.toList.length ≤ m.incoming.toList.length) : Fits m' := by
  refine fits_of_reserved ?_
  have hmembers := h.members
  unfold Roles.reserved
  rw [hmem, hout, hcap]
  rcases h.reserved with hres | ⟨_, hnone⟩
  · unfold Roles.reserved at hres
    simp only [Option.toList_none, List.length_nil]
    omega
  · rw [hnone] at hin
    simp only [Option.toList_none, List.length_nil] at hin ⊢
    omega

theorem fits_lose (h : Fits m) : Fits (m.lose d) := by
  refine ⟨h.members, ?_⟩
  rcases h.reserved with hres | ⟨hv, _⟩
  · refine Or.inl ?_
    simp only [Roles.reserved, Machine.lose, Option.toList_none, List.length_nil] at hres ⊢
    omega
  · exact Or.inr ⟨hv, rfl⟩

/-- The victim and the newcomer share a place. -/
theorem fits_beginEviction (h : Fits m) (hin : m.incoming = none) : Fits (m.beginEviction v d) :=
  ⟨h.members, Or.inr ⟨by simp [Roles.victim, Machine.beginEviction], hin⟩⟩

/-- The place of the outgoing link was its own, or nobody else has come meanwhile. -/
theorem fits_completeOutgoing (h : Fits m) (hout : m.outgoingDevice = some d)
    (hroom : m.members.length < m.capacity) : Fits (m.completeOutgoing d) := by
  refine fits_of_reserved ?_
  obtain ⟨o, ho, _⟩ := Option.map_eq_some_iff.mp hout
  have hres : (m.completeOutgoing d).reserved
      = m.members.length + 1 + m.incoming.toList.length := by
    simp [Roles.reserved, Machine.completeOutgoing, Machine.enlist]
  rw [hres, show (m.completeOutgoing d).capacity = m.capacity from rfl]
  rcases h.reserved with hres | ⟨_, hnone⟩
  · unfold Roles.reserved at hres
    simpa [ho] using hres
  · simp only [hnone, Option.toList_none, List.length_nil]
    omega

theorem fits_completeIncoming (h : Fits m) (hin : m.incoming = some d)
    (hroom : m.members.length < m.capacity) : Fits (m.completeIncoming d) := by
  have hlen : (m.completeIncoming d).members.length = m.members.length + 1 := by
    simp [Machine.completeIncoming, Machine.enlist]
  refine ⟨by rw [hlen]; exact hroom, ?_⟩
  rcases h.reserved with hres | ⟨_, hnone⟩
  · refine Or.inl ?_
    unfold Roles.reserved at hres ⊢
    rw [hlen]
    simpa [hin, Machine.completeIncoming, Machine.enlist, Nat.add_right_comm] using hres
  · simp [hin] at hnone

theorem length_expel_le (m : Machine) (d : Address) :
    (m.expel d).members.length ≤ m.members.length :=
  List.length_filter_le _ _

/-- Once the victim has gone, the place that it shared is the newcomer's. -/
theorem length_expel_lt (hd : d ∈ m.members) :
    (m.expel d).members.length < m.members.length :=
  List.length_filter_lt_length_iff_exists.mpr ⟨d, hd, by simp⟩

theorem fits_parted (h : Fits m) (hd : d ∈ m.members) (hp : Parted env m d es m') : Fits m' := by
  have hgone : Fits ((m.endParting d).expel d) :=
    fits_of_le h rfl (length_expel_le _ _) rfl rfl
  cases hp with
  | vacated => exact hgone
  | @requested e hout =>
      refine fits_of_reserved ?_
      have hlt := length_expel_lt (m := m.endParting d) hd
      have hmembers := h.members
      have hlen : (m.endParting d).members.length = m.members.length := rfl
      rw [reserved_awaitLink]
      show _ + 1 + m.incoming.toList.length ≤ m.capacity
      rcases h.reserved with hres | ⟨_, hnone⟩
      · unfold Roles.reserved at hres
        omega
      · simp only [hnone, Option.toList_none, List.length_nil]
        omega
  | refused => exact fits_dropped hgone rfl rfl rfl (Nat.le_refl _)

theorem fits_outcome {msg : Message} (h : Fits m) (hc : Consistent m)
    (ho : Outcome env m msg es m') : Fits m' := by
  cases ho with
  | nothing | linkRefused | noVictim | evictionRefused | partingRefused | comingRejected
  | incomingRefused | upRejected | answered => exact h
  | connectDeferred | disconnectDeferred | partingBegun | stayed | played | silenced | formatSet
  | nothingExpired => exact fits_of_le h rfl (Nat.le_refl _) rfl rfl
  | linkRequested hstable _ hroom =>
      refine fits_of_room hroom rfl ?_
      rw [reserved_awaitLink, Roles.reserved]
      omega
  | evictionBegun hstable => exact fits_beginEviction h (Roles.isStable_iff.mp hstable).2.1
  | withdrawn | linkFailed | linkedEarly | linkExpired | stayedAgainst =>
      exact fits_dropped h rfl rfl rfl (Nat.le_refl _)
  | parted hleave hp | partingExpired _ hleave hp =>
      exact fits_parted h (hc.leaving_member hleave) hp
  | dropped => exact fits_of_le h rfl (length_expel_le _ _) rfl rfl
  | incomingFailed | incomingExpired => exact fits_lose h
  | incomingBegun _ _ hin hroom =>
      refine fits_of_room hroom rfl ?_
      simp [Roles.reserved, Machine.receive, hin]
  | linked hout hroom => exact fits_completeOutgoing h hout hroom
  | incomingLinked hin _ hroom => exact fits_completeIncoming h hin hroom
  | admitted _ _ _ hroom =>
      refine fits_of_room hroom rfl ?_
      simp only [Roles.reserved, Machine.enlist, List.length_append, List.length_singleton]
      omega
  | @evictionExpired d v =>
      have hgone : Fits (m.abandon d) := fits_dropped h rfl rfl rfl (Nat.le_refl _)
      exact fits_of_le hgone rfl (length_expel_le _ _) rfl rfl
  | stopped hout hin =>
      have hend : Outcome env m .shutdown _ _ := .stopped hout hin
      obtain ⟨hmem, hnone, hnone'⟩ := roles_shutdown hend
      refine fits_dropped h (settings_outcome hend).1 hmem hnone ?_
      simp [hnone']

/-! ## Who is admitted without question -/

theorem Fits.room_of_requested (h : Fits m) (hout : m.outgoing = some ⟨d, .requested⟩) :
    m.members.length < m.capacity := by
  rcases h.reserved with hres | ⟨hv, _⟩
  · simp only [Roles.reserved, hout, Option.toList_some, List.length_singleton] at hres
    omega
  · simp [Roles.victim, hout] at hv

/-- **A link that was asked for has its place when it is up.** -/
theorem linked_of_requested (h : Fits m) (hc : Consistent m)
    (hout : m.outgoing = some ⟨d, .requested⟩)
    (ho : Outcome env m (.event (.link d .connected)) es m') :
    es = [.notice (.link d .connecting .connected)] ∧ m' = m.completeOutgoing d := by
  have hdevice := Roles.outgoingDevice_eq hout
  have hfresh := hc.outgoing_fresh hdevice
  have hroom := h.room_of_requested hout
  cases ho with
  | linked => exact ⟨rfl, rfl⟩
  | linkedEarly _ hfull => exact absurd hroom hfull
  | incomingLinked hin | incomingRefused hin => exact absurd hin hfresh.2
  | stayed hleave => exact absurd hleave (hc.not_leaving hfresh.1)
  | stayedAgainst hout' => simp [hout] at hout'
  | admitted _ hflight | upRejected _ hflight =>
      exact absurd hdevice (Roles.isInFlight_eq_false_iff.mp hflight).1
  | nothing hneed =>
      cases hneed with
      | upTwice hd => exact absurd hd hfresh.1

/-- **A device that is welcome has its place when its own link is up.** -/
theorem linked_of_incoming (h : Fits m) (hc : Consistent m) (hin : m.incoming = some d)
    (hallow : m.policy.allows env.facts d false = true)
    (ho : Outcome env m (.event (.link d .connected)) es m') :
    es = [.notice (.link d .connecting .connected)] ∧ m' = m.completeIncoming d := by
  have hfresh := hc.incoming_fresh hin
  have hdevice := hc.not_outgoing hin
  have hroom : m.members.length < m.capacity := by
    rcases h.reserved with hres | ⟨_, hnone⟩
    · simp only [Roles.reserved, hin, Option.toList_some, List.length_singleton] at hres
      omega
    · simp [hin] at hnone
  cases ho with
  | incomingLinked => exact ⟨rfl, rfl⟩
  | incomingRefused _ hwhy => exact absurd ⟨hallow, hroom⟩ hwhy
  | linked hout | linkedEarly hout => exact absurd hout hdevice
  | stayed hleave => exact absurd hleave (hc.not_leaving hfresh)
  | stayedAgainst hout =>
      exact absurd (hc.leaving_member (hc.awaiting hout)) hfresh
  | admitted _ hflight | upRejected _ hflight =>
      exact absurd hin (Roles.isInFlight_eq_false_iff.mp hflight).2
  | nothing hneed =>
      cases hneed with
      | upTwice hd => exact absurd hd hfresh

/-- What a message does about the members, a whole turn does: requests that waited admit
nobody. -/
theorem handle_admits {msg : Message} {admitted : Effect} (hc : Consistent m)
    (hrun : m.stopped = false)
    (h : ∀ {es m₁}, Outcome env m msg es m₁ → es = [admitted]
      ∧ m₁.members = m.members ++ [d] ∧ m₁.primary = some d) :
    (m.handle env msg).effects.head? = some admitted
      ∧ (m.handle env msg).machine.members = m.members ++ [d]
      ∧ (m.handle env msg).machine.primary = some d := by
  obtain ⟨es, m₁, rs, es', m₂, heq, ho, hr⟩ := handle_cases env msg hc hrun
  obtain ⟨rfl, hmem, hprim⟩ := h ho
  obtain ⟨hmem', hprim'⟩ := members_replay hr
  rw [heq]
  exact ⟨rfl, hmem'.trans hmem, hprim'.trans hprim⟩

/-! ## What every run keeps -/

/-- What is known of a machine after a run: its settings are those it was given, the places
are enough, and it brings up no link once it was told to stop. -/
structure Provided (capacity : Nat) (policy : Policy) (m : Machine) : Prop where
  capacity_eq : m.capacity = capacity
  policy_eq : m.policy = policy
  fits : Fits m
  ended : m.stopped = true → m.outgoing = none ∧ m.incoming = none

theorem provided_outcome {capacity : Nat} {policy : Policy} {msg : Message}
    (h : Provided capacity policy m) (hc : Consistent m) (hrun : m.stopped = false)
    (ho : Outcome env m msg es m') : Provided capacity policy m' where
  capacity_eq := (settings_outcome ho).1.trans h.capacity_eq
  policy_eq := (settings_outcome ho).2.trans h.policy_eq
  fits := fits_outcome h.fits hc ho
  ended := by
    intro hstop
    by_cases hmsg : msg = .shutdown
    · exact (roles_shutdown (hmsg ▸ ho)).2
    · rw [stopped_outcome hmsg ho, hrun] at hstop
      exact absurd hstop (by simp)

theorem provided_handle {capacity : Nat} {policy : Policy} (env : Surroundings) (msg : Message)
    (hc : Consistent m) (h : Provided capacity policy m) :
    Provided capacity policy (m.handle env msg).machine :=
  (handle_keeps (I := fun _ m => Provided capacity policy m)
    (fun _ h => { h with fits := { h.fits with } })
    (fun hc hrun h ho => provided_outcome h hc hrun ho) env msg [] hc h).2

theorem provided_fresh (capacity : Nat) (timeout : Duration) (policy : Policy) :
    Provided capacity policy (.fresh capacity timeout policy) where
  capacity_eq := rfl
  policy_eq := rfl
  fits := fits_of_reserved (Nat.zero_le _)
  ended := fun _ => ⟨rfl, rfl⟩

theorem provided_run (capacity : Nat) (timeout : Duration) (policy : Policy)
    (occasions : List (Surroundings × Message)) :
    Provided capacity policy ((Machine.fresh capacity timeout policy).run occasions).machine :=
  machine_run_keeps capacity timeout policy occasions (provided_fresh capacity timeout policy)
    provided_handle

/-- Without the victim, who goes, and with everybody whose link is being brought up, the
members do not need more places than there are. -/
theorem Fits.claimed_le (h : Fits m) (hc : Consistent m) :
    (m.members.filter fun e => m.victim ≠ some e).length + m.outgoing.toList.length
      + m.incoming.toList.length ≤ m.capacity := by
  have hle := List.length_filter_le (fun e => decide (m.victim ≠ some e)) m.members
  rcases h.reserved with hres | ⟨hv, hin⟩
  · unfold Roles.reserved at hres
    omega
  · obtain ⟨v, hv⟩ := Option.ne_none_iff_exists'.mp hv
    obtain ⟨d, hout⟩ := Roles.victim_eq_some hv
    have hmem : v ∈ m.members := hc.leaving_member (hc.awaiting hout)
    have hlt : (m.members.filter fun e => m.victim ≠ some e).length < m.members.length :=
      List.length_filter_lt_length_iff_exists.mpr ⟨v, hmem, by simp [hv]⟩
    have hmembers := h.members
    simp only [hout, hin, Option.toList_some, Option.toList_none, List.length_singleton,
      List.length_nil]
    omega

/-- **A place that is reserved is never taken by somebody else.** After every message the
members fit the capacity, and so do the members that stay together with the devices whose
links are being brought up. Hence a link that was asked for is admitted when it is up, and
so is a device that links itself and is still welcome. -/
theorem reserved_places_are_kept (capacity : Nat) (timeout : Duration) (policy : Policy)
    (occasions : List (Surroundings × Message)) :
    let m := ((Machine.fresh capacity timeout policy).run occasions).machine
    (m.members.filter fun e => m.victim ≠ some e).length + m.outgoing.toList.length
        + m.incoming.toList.length ≤ capacity
      ∧ m.members.length ≤ capacity
      ∧ ∀ (env : Surroundings) (d : Address),
          (m.outgoing = some ⟨d, .requested⟩
            ∨ (m.incoming = some d ∧ policy.allows env.facts d false = true)) →
          let t := m.handle env (.event (.link d .connected))
          t.effects.head? = some (.notice (.link d .connecting .connected))
            ∧ t.machine.members = m.members ++ [d] ∧ t.machine.primary = some d := by
  intro m
  have hc : Consistent m := consistent_run capacity timeout policy occasions
  have h : Provided capacity policy m := provided_run capacity timeout policy occasions
  rw [← h.capacity_eq, ← h.policy_eq]
  refine ⟨h.fits.claimed_le hc, h.fits.members, fun env d hcome => ?_⟩
  have hrun : m.stopped = false := by
    cases hstop : m.stopped with
    | false => rfl
    | true =>
        obtain ⟨hout, hin⟩ := h.ended hstop
        simp [hout, hin] at hcome
  refine handle_admits hc hrun fun ho => ?_
  rcases hcome with hout | ⟨hin, hallow⟩
  · obtain ⟨hes, rfl⟩ := linked_of_requested h.fits hc hout ho
    exact ⟨hes, rfl, rfl⟩
  · obtain ⟨hes, rfl⟩ := linked_of_incoming h.fits hc hin hallow ho
    exact ⟨hes, rfl, rfl⟩

/-- The only place goes from the member that makes way to the one it makes way for. -/
theorem reserved_place_is_kept_after_eviction :
    let env := ({} : ScriptedStack).surroundings ({} : Registry).facts
    let first := Address.of 0 0 0 0 0 1
    let second := Address.of 0 0 0 0 0 2
    let m := ((Machine.fresh 1 (.ofMillis 30000) ⟨false⟩).run
      [(env, .request (.connect first)), (env, .event (.link first .connected)),
        (env, .request (.connect second)), (env, .event (.link first .disconnected))]).machine
    m.outgoing = some ⟨second, .requested⟩ ∧ m.members = []
      ∧ (m.handle env (.event (.link second .connected))).machine.members
        = m.members ++ [second] := by
  intro env first second m
  have hout : m.outgoing = some ⟨second, .requested⟩ := by decide +kernel
  have hgone : m.members = [] := by decide +kernel
  -- the run is arbitrary here, or it would be carried out to compare the two statements
  have hplace : ∀ {occasions} {m' : Machine},
      m' = ((Machine.fresh 1 (.ofMillis 30000) ⟨false⟩).run occasions).machine →
      m'.outgoing = some ⟨second, .requested⟩ →
      (m'.handle env (.event (.link second .connected))).machine.members
        = m'.members ++ [second] := by
    rintro occasions m' rfl hout
    obtain ⟨-, -, hplace⟩ := reserved_places_are_kept 1 (.ofMillis 30000) ⟨false⟩ occasions
    exact (hplace env second (Or.inl hout)).2.1
  exact ⟨hout, hgone, hplace rfl hout⟩

end AudioLink
