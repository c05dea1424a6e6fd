import AudioLink.Proofs.Change

/-!
# Who may hold which role

The roles, the playing devices and the stored formats are updated by hand in every
handler. `Consistent` says how they hang together between two messages: nobody holds two
roles, only a member leaves, the stage of the outgoing link fits the member on its way
out, and nothing is kept of a device that holds no role.

The first half of it, `Orderly`, holds at every moment of a turn. The stages do not: when
the member that an outgoing link waited for has gone, the link waits for nobody until the
stack was asked for it.
-/

namespace AudioLink

variable {m : Machine} {d e v : Address}

/-- Nobody holds two roles, and nothing is kept of a device without one. -/
structure Orderly (m : Machine) : Prop where
  /-- No member is listed twice. -/
  nodup : m.members.Nodup
  /-- The outgoing link leads to a stranger. -/
  outgoing_fresh : ∀ {d}, m.outgoingDevice = some d → d ∉ m.members ∧ m.incoming ≠ some d
  /-- The incoming link comes from a stranger. -/
  incoming_fresh : ∀ {d}, m.incoming = some d → d ∉ m.members
  /-- Only a member can be on its way out. -/
  leaving_member : ∀ {d}, m.leaving = some d → d ∈ m.members
  /-- The primary member is a member. -/
  primary_member : ∀ {d}, m.primary = some d → d ∈ m.members
  /-- One of several members is primary. -/
  primary_exists : m.primary = none → m.members = []
  /-- Only members play. -/
  playing_member : ∀ {d}, d ∈ m.playing → d ∈ m.members
  /-- Formats are stored of members and of devices that may become members. -/
  format_held : ∀ {d}, d ∈ m.formats →
    d ∈ m.members ∨ m.outgoingDevice = some d ∨ m.incoming = some d

/-- The roles fit each other as they do between two messages. -/
structure Consistent (m : Machine) : Prop extends Orderly m where
  /-- The outgoing link waits for the member that is on its way out. -/
  awaiting : ∀ {d v}, m.outgoing = some ⟨d, .awaitingEviction v⟩ → m.leaving = some v
  /-- A link that was asked for waits for nobody. -/
  requested : ∀ {d}, m.outgoing = some ⟨d, .requested⟩ → m.leaving = none

theorem Orderly.not_leaving (h : Orderly m) (hd : d ∉ m.members) : m.leaving ≠ some d :=
  fun hleave => hd (h.leaving_member hleave)

theorem Orderly.not_outgoing (h : Orderly m) (hin : m.incoming = some d) :
    m.outgoingDevice ≠ some d :=
  fun hout => (h.outgoing_fresh hout).2 hin

/-- No link to or from a member is being brought up. -/
theorem Orderly.not_inFlight (h : Orderly m) (hd : d ∈ m.members) :
    m.outgoingDevice ≠ some d ∧ m.incoming ≠ some d :=
  ⟨fun hout => (h.outgoing_fresh hout).1 hd, fun hin => h.incoming_fresh hin hd⟩

/-! ## What the changes keep -/

theorem orderly_awaitLink (h : Orderly m) (hd : d ∉ m.members) (hin : m.incoming ≠ some d)
    (hout : ∀ {e}, m.outgoingDevice = some e → e = d) : Orderly (m.awaitLink d) := by
  refine { h with outgoing_fresh := ?_, format_held := ?_ }
  · intro e he
    have hde : d = e := by simpa [Machine.awaitLink, Roles.outgoingDevice] using he
    exact hde ▸ ⟨hd, hin⟩
  · intro e he
    rcases h.format_held he with hm | ho | hi
    · exact Or.inl hm
    · exact Or.inr (Or.inl (by rw [hout ho]; rfl))
    · exact Or.inr (Or.inr hi)

theorem orderly_abandon (h : Orderly m) (hout : m.outgoingDevice = some d) :
    Orderly (m.abandon d) := by
  refine { h with outgoing_fresh := ?_, format_held := ?_ }
  · intro e he
    simp [Machine.abandon, Roles.outgoingDevice] at he
  · intro e he
    obtain ⟨hne, he⟩ : d ≠ e ∧ e ∈ m.formats := by simpa [Machine.abandon] using he
    rcases h.format_held he with hm | ho | hi
    · exact Or.inl hm
    · exact absurd (Option.some.inj (hout.symm.trans ho)) hne
    · exact Or.inr (Or.inr hi)

theorem orderly_receive (h : Orderly m) (hd : d ∉ m.members) (hout : m.outgoingDevice ≠ some d)
    (hin : m.incoming = none) : Orderly (m.receive d) := by
  refine { h with outgoing_fresh := ?_, incoming_fresh := ?_, format_held := ?_ }
  · intro e he
    refine ⟨(h.outgoing_fresh he).1, fun hde => ?_⟩
    have hde : d = e := by simpa [Machine.receive] using hde
    exact hout (hde ▸ he)
  · intro e he
    have hde : d = e := by simpa [Machine.receive] using he
    exact hde ▸ hd
  · intro e he
    rcases h.format_held he with hm | ho | hi
    · exact Or.inl hm
    · exact Or.inr (Or.inl ho)
    · simp [hin] at hi

theorem orderly_lose (h : Orderly m) (hin : m.incoming = some d) : Orderly (m.lose d) := by
  refine { h with outgoing_fresh := ?_, incoming_fresh := ?_, format_held := ?_ }
  · intro e he
    exact ⟨(h.outgoing_fresh he).1, by simp [Machine.lose]⟩
  · intro e he
    simp [Machine.lose] at he
  · intro e he
    obtain ⟨hne, he⟩ : d ≠ e ∧ e ∈ m.formats := by simpa [Machine.lose] using he
    rcases h.format_held he with hm | ho | hi
    · exact Or.inl hm
    · exact Or.inr (Or.inl ho)
    · exact absurd (Option.some.inj (hin.symm.trans hi)) hne

theorem orderly_beginParting (h : Orderly m) (hd : d ∈ m.members) :
    Orderly (m.beginParting d) := by
  refine { h with leaving_member := ?_, playing_member := ?_ }
  · intro e he
    have hde : d = e := by simpa [Machine.beginParting] using he
    exact hde ▸ hd
  · intro e he
    obtain ⟨_, he⟩ : d ≠ e ∧ e ∈ m.playing := by simpa [Machine.beginParting] using he
    exact h.playing_member he

theorem orderly_beginEviction (h : Orderly m) (hv : v ∈ m.members) (hd : d ∉ m.members)
    (hout : m.outgoing = none) (hin : m.incoming = none) : Orderly (m.beginEviction v d) := by
  refine { orderly_beginParting h hv with outgoing_fresh := ?_, format_held := ?_ }
  · intro e he
    have hde : d = e := by simpa [Machine.beginEviction, Roles.outgoingDevice] using he
    exact hde ▸ ⟨hd, by simp [Machine.beginEviction, Machine.beginParting, hin]⟩
  · intro e he
    rcases h.format_held he with hm | ho | hi
    · exact Or.inl hm
    · simp [Roles.outgoingDevice, hout] at ho
    · simp [hin] at hi

theorem orderly_endParting (h : Orderly m) : Orderly (m.endParting d) := by
  refine { h with leaving_member := ?_ }
  intro e he
  simp [Machine.endParting] at he

/-- A device is admitted out of the role that it held, if any; the other roles stay. -/
theorem orderly_enlist (h : Orderly m) (hd : d ∉ m.members) {out : Option Outgoing}
    {inc : Option Address} {timers : Timers}
    (hout : ∀ {e}, out.map Outgoing.device = some e ↔ m.outgoingDevice = some e ∧ e ≠ d)
    (hin : ∀ {e}, inc = some e ↔ m.incoming = some e ∧ e ≠ d) :
    Orderly ({ m with outgoing := out, incoming := inc, timers := timers }.enlist d) where
  nodup := by
    refine List.nodup_append.mpr ⟨h.nodup, by simp, ?_⟩
    intro e he f hf hef
    exact hd (List.mem_singleton.mp hf ▸ hef ▸ he)
  outgoing_fresh := by
    intro e he
    obtain ⟨ho, hne⟩ := hout.mp he
    have hfresh := h.outgoing_fresh ho
    rw [Machine.mem_enlist]
    exact ⟨not_or.mpr ⟨hfresh.1, hne⟩, fun hi => hfresh.2 (hin.mp hi).1⟩
  incoming_fresh := by
    intro e he
    obtain ⟨hi, hne⟩ := hin.mp he
    rw [Machine.mem_enlist]
    exact not_or.mpr ⟨h.incoming_fresh hi, hne⟩
  leaving_member := fun he => Machine.mem_enlist.mpr (Or.inl (h.leaving_member he))
  primary_member := fun he => Machine.mem_enlist.mpr (Or.inr (Option.some.inj he).symm)
  primary_exists := by simp [Machine.enlist]
  playing_member := fun he => Machine.mem_enlist.mpr (Or.inl (h.playing_member he))
  format_held := by
    intro e he
    rw [Machine.mem_enlist]
    by_cases hed : e = d
    · exact Or.inl (Or.inr hed)
    · rcases h.format_held he with hm | ho | hi
      · exact Or.inl (Or.inl hm)
      · exact Or.inr (Or.inl (hout.mpr ⟨ho, hed⟩))
      · exact Or.inr (Or.inr (hin.mpr ⟨hi, hed⟩))

theorem orderly_completeOutgoing (h : Orderly m) (hout : m.outgoingDevice = some d) :
    Orderly (m.completeOutgoing d) := by
  refine orderly_enlist h (h.outgoing_fresh hout).1 ?_ ?_
  · intro e
    refine ⟨fun he => by simp at he, ?_⟩
    intro he
    obtain ⟨he, hne⟩ := he
    exact absurd (Option.some.inj (he.symm.trans hout)) hne
  · intro e
    refine ⟨fun he => ⟨he, ?_⟩, And.left⟩
    rintro rfl
    exact (h.outgoing_fresh hout).2 he

theorem orderly_completeIncoming (h : Orderly m) (hin : m.incoming = some d) :
    Orderly (m.completeIncoming d) := by
  refine orderly_enlist h (h.incoming_fresh hin) ?_ ?_
  · intro e
    refine ⟨fun he => ⟨he, ?_⟩, And.left⟩
    rintro rfl
    exact (h.outgoing_fresh he).2 hin
  · intro e
    refine ⟨fun he => by simp at he, ?_⟩
    intro he
    obtain ⟨he, hne⟩ := he
    exact absurd (Option.some.inj (he.symm.trans hin)) hne

theorem orderly_admit (h : Orderly m) (hd : d ∉ m.members) (hout : m.outgoingDevice ≠ some d)
    (hin : m.incoming ≠ some d) : Orderly (m.enlist d) := by
  refine orderly_enlist h hd ?_ ?_
  · intro e
    refine ⟨fun he => ⟨he, ?_⟩, And.left⟩
    rintro rfl
    exact hout he
  · intro e
    refine ⟨fun he => ⟨he, ?_⟩, And.left⟩
    rintro rfl
    exact hin he

theorem orderly_expel (h : Orderly m) (hd : m.leaving ≠ some d) : Orderly (m.expel d) where
  nodup := h.nodup.filter _
  outgoing_fresh := by
    intro e he
    have hfresh := h.outgoing_fresh he
    exact ⟨fun hm => hfresh.1 (Machine.mem_expel.mp hm).1, hfresh.2⟩
  incoming_fresh := fun he hm => h.incoming_fresh he (Machine.mem_expel.mp hm).1
  leaving_member := by
    intro e he
    exact Machine.mem_expel.mpr ⟨h.leaving_member he, fun hed => hd (hed ▸ he)⟩
  primary_member := by
    intro e he
    by_cases hp : m.primary = some d
    · have he : (m.without d).heir = some e := by simpa [Machine.expel, hp] using he
      exact Roles.mem_of_heir he
    · have he : m.primary = some e := by simpa [Machine.expel, hp] using he
      exact Machine.mem_expel.mpr ⟨h.primary_member he, fun hed => hp (hed ▸ he)⟩
  primary_exists := by
    intro he
    by_cases hp : m.primary = some d
    · have he : (m.without d).heir = none := by simpa [Machine.expel, hp] using he
      exact Roles.heir_eq_none he
    · have he : m.primary = none := by simpa [Machine.expel, hp] using he
      show m.members.filter (· ≠ d) = []
      rw [h.primary_exists he, List.filter_nil]
  playing_member := by
    intro e he
    obtain ⟨hne, he⟩ : d ≠ e ∧ e ∈ m.playing := by simpa [Machine.expel] using he
    exact Machine.mem_expel.mpr ⟨h.playing_member he, hne.symm⟩
  format_held := by
    intro e he
    obtain ⟨hne, he⟩ : d ≠ e ∧ e ∈ m.formats := by simpa [Machine.expel] using he
    rw [Machine.mem_expel]
    rcases h.format_held he with hm | hout | hin
    · exact Or.inl ⟨hm, hne.symm⟩
    · exact Or.inr (Or.inl hout)
    · exact Or.inr (Or.inr hin)

/-- The member on its way out is gone. -/
theorem orderly_parted (h : Orderly m) : Orderly ((m.endParting d).expel d) :=
  orderly_expel (orderly_endParting h) (by simp [Machine.endParting])

theorem orderly_play (h : Orderly m) (hd : d ∈ m.members) :
    Orderly { m with playing := m.playing.insert d } := by
  refine { h with playing_member := ?_ }
  intro e he
  have he : d = e ∨ e ∈ m.playing := by simpa using he
  rcases he with rfl | he
  · exact hd
  · exact h.playing_member he

theorem orderly_silence (h : Orderly m) : Orderly { m with playing := m.playing.erase d } := by
  refine { h with playing_member := ?_ }
  intro e he
  obtain ⟨_, he⟩ : d ≠ e ∧ e ∈ m.playing := by simpa using he
  exact h.playing_member he

theorem orderly_format (h : Orderly m) {format : StreamFormat}
    (hd : d ∈ m.members ∨ m.outgoingDevice = some d ∨ m.incoming = some d) :
    Orderly { m with formats := m.formats.insert d format } := by
  refine { h with format_held := ?_ }
  intro e he
  have he : d = e ∨ e ∈ m.formats := by simpa using he
  rcases he with rfl | he
  · exact hd
  · exact h.format_held he

/-! ## Consistency where the stages are clear -/

theorem Orderly.consistent (h : Orderly m) (hout : m.outgoing = none) : Consistent m :=
  { h with awaiting := by simp [hout], requested := by simp [hout] }

theorem consistent_abandon (h : Consistent m) (hout : m.outgoingDevice = some d) :
    Consistent (m.abandon d) :=
  (orderly_abandon h.toOrderly hout).consistent rfl

theorem consistent_deferred (queue : List Request) (h : Consistent m) :
    Consistent { m with deferred := queue } :=
  { h with }

theorem consistent_disarm (d : Address) (h : Consistent m) : Consistent (m.disarm d) :=
  { h with }

end AudioLink
