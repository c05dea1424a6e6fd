import AudioLink.Proofs.Run

/-!
# What a listener knows

A listener hears notices and nothing else. `Replica` is what it can make of them: it
writes down the last state of every link, who is a member in order of admission, who
plays, and in which format.

The notices are given by hand beside every change of the machine. That none is missing,
superfluous or out of place is one equation: the replica of everything heard so far is
the snapshot of the machine.
-/

namespace AudioLink

variable {env : Surroundings} {m m' : Machine} {d e v : Address} {es : List Effect}

/-- What a listener makes of the notices it has heard. -/
@[ext] structure Replica where
  members : List Address := []
  state : Address → LinkState := fun _ => .disconnected
  playing : AddressSet := ∅
  formats : AddressMap StreamFormat := ∅

namespace Replica

/-- The members after the link to a device has reached a state. -/
def membersAfter (members : List Address) (d : Address) : LinkState → List Address
  | .connected => if d ∈ members then members else members ++ [d]
  | .disconnected => members.filter (· ≠ d)
  | .connecting | .disconnecting => members

/-- One more notice is heard. -/
def hear (r : Replica) : Notice → Replica
  | .link d _ new =>
    { r with
      members := membersAfter r.members d new
      state := fun e => if e = d then new else r.state e
      formats := if new = .disconnected then r.formats.erase d else r.formats }
  | .play d _ .playing => { r with playing := r.playing.insert d }
  | .play d _ .notPlaying => { r with playing := r.playing.erase d }
  | .format d format => { r with formats := r.formats.insert d format }

/-- The notices among some effects are heard. -/
def follow (es : List Effect) (r : Replica) : Replica :=
  (es.filterMap Effect.notice?).foldl hear r

@[simp] theorem follow_nil (r : Replica) : r.follow [] = r := rfl

@[simp] theorem follow_notice (n : Notice) (es : List Effect) (r : Replica) :
    r.follow (.notice n :: es) = (r.hear n).follow es := rfl

@[simp] theorem follow_request (q : Request) (a : Bool) (roles : Roles) (es : List Effect)
    (r : Replica) : r.follow (.request q a roles :: es) = r.follow es := rfl

@[simp] theorem follow_rejected (d : Address) (es : List Effect) (r : Replica) :
    r.follow (.rejected d :: es) = r.follow es := rfl

@[simp] theorem follow_permission (d : Address) (allowed : Bool) (es : List Effect) (r : Replica) :
    r.follow (.permission d allowed :: es) = r.follow es := rfl

@[simp] theorem follow_append (es es' : List Effect) (r : Replica) :
    r.follow (es ++ es') = (r.follow es).follow es' := by
  simp [follow]

end Replica

/-- What a listener should know of a machine. -/
def Machine.replica (m : Machine) : Replica where
  members := m.members
  state := m.snapshot.linkState
  playing := m.playing
  formats := m.formats

theorem linkState_eq (m : Machine) (d : Address) :
    m.snapshot.linkState d
      = if m.leaving = some d then .disconnecting
        else if d ∈ m.members then .connected
        else if m.outgoingDevice = some d ∨ m.incoming = some d then .connecting
        else .disconnected := rfl

theorem linkState_leaving (hleave : m.leaving = some d) :
    m.snapshot.linkState d = .disconnecting := by
  rw [linkState_eq, if_pos hleave]

theorem linkState_member (hd : d ∈ m.members) (hleave : m.leaving ≠ some d) :
    m.snapshot.linkState d = .connected := by
  rw [linkState_eq, if_neg hleave, if_pos hd]

theorem linkState_inFlight (hd : d ∉ m.members) (hleave : m.leaving ≠ some d)
    (hflight : m.outgoingDevice = some d ∨ m.incoming = some d) :
    m.snapshot.linkState d = .connecting := by
  rw [linkState_eq, if_neg hleave, if_neg hd, if_pos hflight]

theorem linkState_stranger (hd : d ∉ m.members) (hleave : m.leaving ≠ some d)
    (hout : m.outgoingDevice ≠ some d) (hin : m.incoming ≠ some d) :
    m.snapshot.linkState d = .disconnected := by
  rw [linkState_eq, if_neg hleave, if_neg hd, if_neg (not_or.mpr ⟨hout, hin⟩)]

theorem linkState_congr (hmember : d ∈ m'.members ↔ d ∈ m.members)
    (hleave : m'.leaving = some d ↔ m.leaving = some d)
    (hout : m'.outgoingDevice = some d ↔ m.outgoingDevice = some d)
    (hin : m'.incoming = some d ↔ m.incoming = some d) :
    m'.snapshot.linkState d = m.snapshot.linkState d := by
  simp only [linkState_eq, hmember, hleave, hout, hin]

/-! ## One lemma for each change -/

/-- A notice of a link tells the state of one device, and nothing else may have changed. -/
theorem hear_link {old new : LinkState}
    (hmembers : Replica.membersAfter m.members d new = m'.members)
    (hself : m'.snapshot.linkState d = new)
    (hothers : ∀ e, e ≠ d → m'.snapshot.linkState e = m.snapshot.linkState e)
    (hplaying : m.playing = m'.playing)
    (hformats : (if new = .disconnected then m.formats.erase d else m.formats) = m'.formats) :
    m.replica.hear (.link d old new) = m'.replica := by
  refine Replica.ext hmembers ?_ hplaying hformats
  funext e
  show (if e = d then new else m.snapshot.linkState e) = m'.snapshot.linkState e
  by_cases hed : e = d
  · rw [if_pos hed, hed, hself]
  · rw [if_neg hed, hothers e hed]

theorem filter_ne_eq_self {members : List Address} (hd : d ∉ members) :
    members.filter (· ≠ d) = members := by
  refine List.filter_eq_self.mpr fun e he => ?_
  have hne : e ≠ d := fun hed => hd (hed ▸ he)
  simpa using hne

theorem erase_format_eq_self {formats : AddressMap StreamFormat} (hd : d ∉ formats) :
    formats.erase d = formats := by
  refine Std.ExtTreeMap.ext_getElem? fun e => ?_
  simp only [Std.ExtTreeMap.getElem?_erase, Std.LawfulEqCmp.compare_eq_iff_eq]
  split
  · next hde => rw [← hde, Std.ExtTreeMap.getElem?_eq_none hd]
  · rfl

theorem erase_playing_eq_self {playing : AddressSet} (hd : d ∉ playing) :
    playing.erase d = playing := by
  refine Std.ExtTreeSet.ext_mem fun e => ?_
  rw [Std.ExtTreeSet.mem_erase]
  refine ⟨And.right, fun he => ⟨fun hde => hd ?_, he⟩⟩
  rwa [Std.LawfulEqCmp.eq_of_compare hde]

theorem replica_congr (hmembers : m'.members = m.members) (hleave : m'.leaving = m.leaving)
    (hout : m'.outgoingDevice = m.outgoingDevice) (hin : m'.incoming = m.incoming)
    (hplaying : m'.playing = m.playing) (hformats : m'.formats = m.formats) :
    m'.replica = m.replica := by
  refine Replica.ext hmembers ?_ hplaying hformats
  funext e
  refine linkState_congr ?_ ?_ ?_ ?_
  · rw [hmembers]
  · rw [hleave]
  · rw [hout]
  · rw [hin]

/-- The machine begins to link to a device, at whatever stage. -/
theorem hear_outgoing {stage : Stage} {timers : Timers} (h : Orderly m) (hout : m.outgoing = none)
    (hd : d ∉ m.members) :
    m.replica.hear (.link d .disconnected .connecting)
      = Machine.replica { m with outgoing := some ⟨d, stage⟩, timers := timers } := by
  refine hear_link rfl ?_ (fun e hne => ?_) rfl rfl
  · exact linkState_inFlight hd (h.not_leaving hd) (Or.inl rfl)
  · refine linkState_congr Iff.rfl Iff.rfl ?_ Iff.rfl
    simp [Roles.outgoingDevice, hout, hne.symm]

/-- A link that was told of before is asked for silently. -/
theorem replica_awaitLink (hout : m.outgoingDevice = some d) :
    (m.awaitLink d).replica = m.replica :=
  replica_congr rfl rfl hout.symm rfl rfl rfl

theorem hear_abandon (h : Orderly m) (hout : m.outgoingDevice = some d) :
    m.replica.hear (.link d .connecting .disconnected) = (m.abandon d).replica := by
  obtain ⟨hd, hin⟩ := h.outgoing_fresh hout
  refine hear_link (filter_ne_eq_self hd) ?_ (fun e hne => ?_) rfl rfl
  · exact linkState_stranger hd (h.not_leaving hd) (by simp [Machine.abandon, Roles.outgoingDevice])
      hin
  · refine linkState_congr Iff.rfl Iff.rfl ?_ Iff.rfl
    rw [hout]
    simp [Machine.abandon, Roles.outgoingDevice, hne.symm]

/-- A device without a role is told of and taken back: nothing was changed. -/
theorem hear_rollback (h : Orderly m) (hd : d ∉ m.members) (hout : m.outgoing = none)
    (hin : m.incoming = none) :
    (m.replica.hear (.link d .disconnected .connecting)).hear (.link d .connecting .disconnected)
      = m.replica := by
  have hdevice : m.outgoingDevice ≠ some d := by simp [Roles.outgoingDevice, hout]
  have hbegun : Orderly (m.awaitLink d) :=
    orderly_awaitLink h hd (by simp [hin]) (by simp [Roles.outgoingDevice, hout])
  have hformat : d ∉ m.formats := fun hf => by
    have hheld := h.format_held hf
    simp [hd, hdevice, hin] at hheld
  have hkeep : m.replica.hear (.link d .disconnected .connecting) = (m.awaitLink d).replica :=
    hear_outgoing h hout hd
  rw [hkeep, hear_abandon hbegun rfl]
  -- what was stored of the device went with the link, but there was nothing
  refine replica_congr rfl rfl ?_ rfl rfl (erase_format_eq_self hformat)
  simp [Machine.abandon, Machine.awaitLink, Roles.outgoingDevice, hout]

theorem hear_receive (h : Orderly m) (hin : m.incoming = none) (hd : d ∉ m.members) :
    m.replica.hear (.link d .disconnected .connecting) = (m.receive d).replica := by
  refine hear_link rfl ?_ (fun e hne => ?_) rfl rfl
  · exact linkState_inFlight hd (h.not_leaving hd) (Or.inr rfl)
  · refine linkState_congr Iff.rfl Iff.rfl Iff.rfl ?_
    simp [Machine.receive, hin, hne.symm]

theorem hear_lose (h : Orderly m) (hin : m.incoming = some d) :
    m.replica.hear (.link d .connecting .disconnected) = (m.lose d).replica := by
  have hd := h.incoming_fresh hin
  refine hear_link (filter_ne_eq_self hd) ?_ (fun e hne => ?_) rfl rfl
  · exact linkState_stranger hd (h.not_leaving hd) (h.not_outgoing hin) (by simp [Machine.lose])
  · refine linkState_congr Iff.rfl Iff.rfl Iff.rfl ?_
    simp [Machine.lose, hin, hne.symm]

theorem hear_leaving (hleave : m.leaving = none) :
    m.replica.hear (.link d .connected .disconnecting)
      = Machine.replica { m with leaving := some d } := by
  refine hear_link rfl (linkState_leaving rfl) (fun e hne => ?_) rfl rfl
  refine linkState_congr Iff.rfl ?_ Iff.rfl Iff.rfl
  simp [hleave, hne.symm]

theorem hear_endParting (hd : d ∈ m.members) (hleave : m.leaving = some d) :
    m.replica.hear (.link d .disconnecting .connected) = (m.endParting d).replica := by
  refine hear_link (if_pos hd) ?_ (fun e hne => ?_) rfl rfl
  · exact linkState_member hd (by simp [Machine.endParting])
  · refine linkState_congr Iff.rfl ?_ Iff.rfl Iff.rfl
    simp [Machine.endParting, hleave, hne.symm]

/-- A member that was to go stays after all: nothing was changed. -/
theorem hear_parting_rollback (hd : d ∈ m.members) (hleave : m.leaving = none) :
    (m.replica.hear (.link d .connected .disconnecting)).hear (.link d .disconnecting .connected)
      = m.replica := by
  rw [hear_leaving hleave, hear_endParting (m := { m with leaving := some d }) hd rfl]
  exact replica_congr rfl hleave.symm rfl rfl rfl rfl

/-- Whoever is admitted is told to be linked, whatever role it held before. -/
theorem hear_enlist (old : LinkState) (h : Orderly m) (hd : d ∉ m.members)
    {out : Option Outgoing} {inc : Option Address} {timers : Timers}
    (hout : ∀ {e}, e ≠ d → (out.map Outgoing.device = some e ↔ m.outgoingDevice = some e))
    (hin : ∀ {e}, e ≠ d → (inc = some e ↔ m.incoming = some e)) :
    m.replica.hear (.link d old .connected)
      = ({ m with outgoing := out, incoming := inc, timers := timers }.enlist d).replica := by
  refine hear_link (if_neg hd) ?_ (fun e hne => ?_) rfl rfl
  · exact linkState_member (Machine.mem_enlist.mpr (Or.inr rfl)) (h.not_leaving hd)
  · refine linkState_congr ?_ Iff.rfl (hout hne) (hin hne)
    rw [Machine.mem_enlist]
    exact or_iff_left hne

/-! ## Devices that fall silent or leave -/

theorem follow_hush {r : Replica} (hr : r.playing = m.playing) :
    r.follow (m.hush d) = { r with playing := r.playing.erase d } := by
  unfold Machine.hush
  split
  · rfl
  · next hd => rw [erase_playing_eq_self (hr ▸ hd), Replica.follow_nil]

theorem hear_beginParting (hleave : m.leaving = none) :
    (m.replica.hear (.link d .connected .disconnecting)).follow (m.hush d)
      = (m.beginParting d).replica := by
  rw [follow_hush rfl, hear_leaving hleave]
  rfl

/-- The device is told of first, and then the member that makes room for it. -/
theorem hear_beginEviction (h : Orderly m) (hstable : m.isStable = true) (hd : d ∉ m.members) :
    ((m.replica.hear (.link d .disconnected .connecting)).hear
        (.link v .connected .disconnecting)).follow (m.hush v)
      = (m.beginEviction v d).replica := by
  obtain ⟨hout, _, hleave⟩ := Roles.isStable_iff.mp hstable
  have hbegun : m.replica.hear (.link d .disconnected .connecting)
      = Machine.replica { m with outgoing := some ⟨d, .awaitingEviction v⟩ } :=
    hear_outgoing h hout hd
  rw [hbegun, hear_leaving (m := { m with outgoing := some _ }) hleave, follow_hush rfl]
  rfl

/-- The heir was a member all along, so the notice of its role tells nothing new. -/
theorem follow_succession : (m.expel d).replica.follow (m.succession d) = (m.expel d).replica := by
  unfold Machine.succession
  split
  · cases hheir : (m.without d).newestSettled with
    | none => rfl
    | some e =>
        obtain ⟨hmem, hleave⟩ := Roles.mem_of_newestSettled hheir
        have hmem : e ∈ (m.expel d).members := hmem
        have hself : (m.expel d).snapshot.linkState e = .connected := linkState_member hmem hleave
        show (m.expel d).replica.hear (.link e .disconnected .connected) = _
        exact hear_link (if_pos hmem) hself (fun _ _ => rfl) rfl rfl
  · rfl

/-- Whatever was known of the link to a device that leaves is overwritten. -/
theorem follow_farewell {r : Replica} {old : LinkState} (h : Orderly m) (hd : d ∈ m.members)
    (hleave : m.leaving ≠ some d) (hmembers : r.members = m.members)
    (hstate : ∀ e, e ≠ d → r.state e = m.snapshot.linkState e) (hplaying : r.playing = m.playing)
    (hformats : r.formats = m.formats) :
    r.follow (m.farewell d old) = (m.expel d).replica := by
  obtain ⟨hout, hin⟩ := h.not_inFlight hd
  have hgone : ({ r with playing := r.playing.erase d } : Replica).hear (.link d old .disconnected)
      = (m.expel d).replica := by
    -- only the state of the device itself may have been unknown, and it is told now
    refine Replica.ext (congrArg (List.filter _) hmembers) ?_ ?_ ?_
    · funext e
      show (if e = d then .disconnected else r.state e) = (m.expel d).snapshot.linkState e
      by_cases hed : e = d
      · have hd' : d ∉ (m.expel d).members := by simp [Machine.mem_expel]
        rw [if_pos hed, hed, linkState_stranger hd' hleave hout hin]
      · rw [if_neg hed, hstate e hed]
        symm
        refine linkState_congr ?_ Iff.rfl Iff.rfl Iff.rfl
        rw [Machine.mem_expel]
        exact and_iff_left hed
    · exact congrArg (Std.ExtTreeSet.erase · d) hplaying
    · exact congrArg (Std.ExtTreeMap.erase · d) hformats
  rw [Machine.farewell, Replica.follow_append, follow_hush hplaying, Replica.follow_notice, hgone,
    follow_succession]

/-! ## Every outcome -/

/-- What is told of the member that has gone tells that it is a member no more. -/
theorem follow_gone (h : Consistent m) (hleave : m.leaving = some d) :
    m.replica.follow ((m.endParting d).farewell d .disconnecting)
      = ((m.endParting d).expel d).replica := by
  have hup : (m.endParting d).leaving ≠ some d := by simp [Machine.endParting]
  refine follow_farewell (orderly_endParting h.toOrderly) (h.leaving_member hleave) hup rfl
    (fun e hne => ?_) rfl rfl
  symm
  show (m.endParting d).snapshot.linkState e = m.snapshot.linkState e
  refine linkState_congr Iff.rfl ?_ Iff.rfl Iff.rfl
  simp [Machine.endParting, hleave, hne.symm]

theorem follow_parted (h : Consistent m) (hleave : m.leaving = some d)
    (hp : Parted env m d es m') : m.replica.follow es = m'.replica := by
  have hgone := follow_gone h hleave
  cases hp with
  | vacated => exact hgone
  | requested hout =>
      have hout : ((m.endParting d).expel d).outgoing = _ := hout
      rw [Replica.follow_append, hgone, replica_awaitLink (Roles.outgoingDevice_eq hout)]
      rfl
  | refused hout =>
      rw [Replica.follow_append, hgone]
      exact hear_abandon (orderly_parted h.toOrderly) (Roles.outgoingDevice_eq hout)

theorem follow_dropped {m₁ : Machine} (h : Consistent m) (hout : OutgoingDropped env m es m₁) :
    Orderly m₁ ∧ m.replica.follow es = m₁.replica := by
  cases hout with
  | absent => exact ⟨h.toOrderly, rfl⟩
  | awaiting hout | requested hout =>
      have hdevice := Roles.outgoingDevice_eq hout
      exact ⟨{ orderly_abandon h.toOrderly hdevice with }, hear_abandon h.toOrderly hdevice⟩

theorem follow_stopped {es es' : List Effect} {m₁ m₂ : Machine} (h : Consistent m)
    (hout : OutgoingDropped env m es m₁) (hin : IncomingDropped env m₁ es' m₂) :
    m.replica.follow (es ++ es') = m₂.stop.replica := by
  obtain ⟨h₁, hknown⟩ := follow_dropped h hout
  rw [Replica.follow_append, hknown]
  cases hin with
  | absent => rfl
  | present hin => exact hear_lose h₁ hin

/-- **A listener that knew the machine before a message knows it afterwards.** -/
theorem follow_outcome {msg : Message} (h : Consistent m) (ho : Outcome env m msg es m') :
    m.replica.follow es = m'.replica := by
  have ho' := h.toOrderly
  cases ho with
  | linkRefused hstable hd | evictionRefused hstable hd =>
      obtain ⟨hout, hin, _⟩ := Roles.isStable_iff.mp hstable
      exact hear_rollback ho' hd hout hin
  | noVictim hstable _ hnone =>
      obtain ⟨hout, hin, _⟩ := Roles.isStable_iff.mp hstable
      exact hear_rollback ho' (by simp [hnone]) hout hin
  | linkRequested hstable hd => exact hear_outgoing ho' (Roles.isStable_iff.mp hstable).1 hd
  | evictionBegun hstable hd =>
      rw [Replica.follow_append]
      exact hear_beginEviction ho' hstable hd
  | withdrawn hout | linkExpired _ hout => exact hear_abandon ho' (Roles.outgoingDevice_eq hout)
  | partingRefused hstable hd =>
      exact hear_parting_rollback hd (Roles.isStable_iff.mp hstable).2.2
  | partingBegun hstable hd =>
      rw [Replica.follow_append]
      exact hear_beginParting (Roles.isStable_iff.mp hstable).2.2
  | parted hleave hp | partingExpired _ hleave hp => exact follow_parted h hleave hp
  | dropped hd hleave => exact follow_farewell ho' hd hleave rfl (fun _ _ => rfl) rfl rfl
  | linkFailed hout | linkedEarly hout => exact hear_abandon ho' hout
  | incomingFailed hin | incomingExpired _ hin => exact hear_lose ho' hin
  | incomingBegun hd _ hin => exact hear_receive ho' hin hd
  | linked hout =>
      refine hear_enlist .connecting ho' (ho'.outgoing_fresh hout).1 (fun hne => ?_)
        (fun _ => Iff.rfl)
      simp [hout, Ne.symm hne]
  | incomingLinked hin =>
      refine hear_enlist .connecting ho' (ho'.incoming_fresh hin) (fun _ => Iff.rfl)
        (fun hne => ?_)
      simp [hin, Ne.symm hne]
  | stayed hleave => exact hear_endParting (h.leaving_member hleave) hleave
  | stayedAgainst hout =>
      have hleave := h.awaiting hout
      have hstay := hear_endParting (h.leaving_member hleave) hleave
      rw [Replica.follow_notice, hstay]
      exact hear_abandon (orderly_endParting ho') (Roles.outgoingDevice_eq hout)
  | admitted hd =>
      exact hear_enlist .disconnected ho' hd (fun _ => Iff.rfl) (fun _ => Iff.rfl)
  | silenced => exact follow_hush rfl
  | @evictionExpired d v _ _ hout =>
      have hdevice := Roles.outgoingDevice_eq hout
      have hgone := consistent_abandon h hdevice
      rw [Replica.follow_notice, hear_abandon ho' hdevice]
      -- with the device given up, its victim parts from a machine that links to nobody
      have hp : Parted env (m.abandon d) v _ _ := .vacated rfl
      exact follow_parted hgone (h.awaiting hout) hp
  | stopped hout hin => exact follow_stopped h hout hin
  | _ => rfl

/-! ## No notice is held back -/

/-- The effect is no notice that would be held back, its two states being the same. -/
def Effect.isNews : Effect → Bool
  | notice n => n.isChange
  | request .. | permission .. | rejected _ => true

theorem news_hush : (m.hush d).all Effect.isNews = true := by
  unfold Machine.hush
  split <;> rfl

theorem news_succession : (m.succession d).all Effect.isNews = true := by
  unfold Machine.succession
  split
  · cases (m.without d).newestSettled <;> rfl
  · rfl

theorem news_farewell {old : LinkState} (hold : old ≠ .disconnected) :
    (m.farewell d old).all Effect.isNews = true := by
  simp [Machine.farewell, news_hush, news_succession, Effect.isNews, Notice.isChange, hold]

theorem news_parted (hp : Parted env m d es m') : es.all Effect.isNews = true := by
  cases hp <;> simp [news_farewell, Effect.isNews, Notice.isChange]

theorem news_outcome {msg : Message} (ho : Outcome env m msg es m') :
    es.all Effect.isNews = true := by
  cases ho with
  | evictionBegun | partingBegun =>
      rw [List.all_append, news_hush]
      rfl
  | parted _ hp | partingExpired _ _ hp => exact news_parted hp
  | dropped => exact news_farewell (by simp)
  | silenced => exact news_hush
  | evictionExpired =>
      rw [List.all_cons, news_farewell (by simp)]
      rfl
  | stopped hout hin => cases hout <;> cases hin <;> rfl
  | _ => rfl

theorem isChange_of_news {log : List Effect} (h : log.all Effect.isNews = true) :
    (log.filterMap Effect.notice?).filter Notice.isChange = log.filterMap Effect.notice? := by
  refine List.filter_eq_self.mpr fun n hn => ?_
  obtain ⟨e, he, hen⟩ := List.mem_filterMap.mp hn
  have hnews := List.all_eq_true.mp h e he
  cases e with
  | notice n' =>
      obtain rfl : n' = n := Option.some.inj hen
      exact hnews
  | request | permission | rejected => simp [Effect.notice?] at hen

/-! ## Every run -/

/-- A listener that heard everything so far knows the machine, and heard only news. -/
structure Informed (log : List Effect) (m : Machine) : Prop where
  replica : ({} : Replica).follow log = m.replica
  news : log.all Effect.isNews = true

theorem informed_outcome {log : List Effect} {msg : Message} (h : Informed log m)
    (hc : Consistent m) (ho : Outcome env m msg es m') : Informed (log ++ es) m' where
  replica := by rw [Replica.follow_append, h.replica, follow_outcome hc ho]
  news := by rw [List.all_append, h.news, news_outcome ho]; rfl

theorem informed_run (capacity : Nat) (timeout : Duration) (policy : Policy)
    (occasions : List (Surroundings × Message)) :
    let t := (Machine.fresh capacity timeout policy).run occasions
    Informed t.effects t.machine :=
  (run_keeps (fun _ h => ⟨h.replica, h.news⟩) (fun hc _ h ho => informed_outcome h hc ho)
    occasions (consistent_fresh capacity timeout policy) ⟨rfl, rfl⟩).2

/-- **After every message, the notices given so far tell what the snapshot shows**: the
members in order of admission, the state of every link, who plays and in which format. None
of them is held back from listeners as a notice of no change. -/
theorem notices_tell_snapshot (capacity : Nat) (timeout : Duration) (policy : Policy)
    (occasions : List (Surroundings × Message)) :
    let t := (Machine.fresh capacity timeout policy).run occasions
    let r := t.notices.foldl Replica.hear {}
    r.members = t.machine.snapshot.members
      ∧ (∀ d, r.state d = t.machine.snapshot.linkState d)
      ∧ r.playing = t.machine.snapshot.playing
      ∧ r.formats = t.machine.snapshot.formats
      ∧ t.notices.filter Notice.isChange = t.notices := by
  intro t r
  have h : Informed t.effects t.machine := informed_run capacity timeout policy occasions
  have hr : r = t.machine.replica := h.replica
  rw [hr]
  exact ⟨rfl, fun _ => rfl, rfl, rfl, isChange_of_news h.news⟩

end AudioLink
