import AudioLink.Proofs.Replica
import AudioLink.Proofs.Slots
import AudioLink.Stack.Scripted

/-!
# Every notice goes on from the last one

A notice tells of a change by its two states. The old one is written out where the notice is
given and not looked up, so it is right only because of the roles that are held there.
`Notice.Follows` says what makes it right: it is the state that was told last of the same
device, the change is one that a link can make, and a device that is told to be gone was told
to be silent before.

One notice goes back on what was told. When the primary member has gone, its heir is
announced as if it had just been linked, right after the other was told to be gone.
-/

namespace AudioLink

variable {env : Surroundings} {m m' : Machine} {d e v : Address} {es : List Effect}
  {primary : Option Address} {previous : Option Notice} {r : Replica} {old new : LinkState}

/-- The changes that the link to a device can make. -/
def LinkState.mayBecome : LinkState → LinkState → Bool
  | .disconnected, .connecting | .disconnected, .connected => true
  | .connecting, .connected | .connecting, .disconnected => true
  | .connected, .disconnecting | .connected, .disconnected => true
  | .disconnecting, .disconnected | .disconnecting, .connected => true
  | .disconnected, _ | .connecting, _ | .connected, _ | .disconnecting, _ => false

/-- Whether the device plays, as it was told last. -/
def Replica.playState (r : Replica) (d : Address) : PlayState :=
  if d ∈ r.playing then .playing else .notPlaying

/-- The notice goes on from what was told before it: `r` is what a listener made of that, and
`previous` the notice just before. The primary member is the one of before the turn. -/
inductive Notice.Follows (primary : Option Address) (previous : Option Notice) (r : Replica) :
    Notice → Prop where
  /-- A link goes on from its last state, and a device goes silently. -/
  | link {d : Address} {old new : LinkState} (hchange : old.mayBecome new = true)
      (hold : old = r.state d) (hsilent : new = .disconnected → r.playState d = .notPlaying) :
      Follows primary previous r (.link d old new)
  /-- A linked device inherits the role of the primary one, which was just told to be gone. -/
  | heir {d e : Address} {old : LinkState} (hprimary : primary = some e)
      (hgone : previous = some (.link e old .disconnected)) (hlinked : r.state d = .connected) :
      Follows primary previous r (.link d .disconnected .connected)
  /-- Playing begins or ends. -/
  | play {d : Address} {old new : PlayState} (hold : old = r.playState d) (hchange : new ≠ old) :
      Follows primary previous r (.play d old new)
  | format {d : Address} {format : StreamFormat} : Follows primary previous r (.format d format)

/-- Each of the notices goes on from those before it. -/
def Replica.Hears (primary : Option Address) : Option Notice → Replica → List Notice → Prop
  | _, _, [] => True
  | previous, r, n :: rest =>
    n.Follows primary previous r ∧ Hears primary (some n) (r.hear n) rest

namespace Replica

theorem hears_append {notices notices' : List Notice} :
    r.Hears primary previous (notices ++ notices')
      ↔ r.Hears primary previous notices
        ∧ (notices.foldl hear r).Hears primary (notices.getLast?.or previous) notices' := by
  induction notices generalizing r previous with
  | nil => simp [Hears]
  | cons n rest ih =>
      have hlast : rest.getLast?.or (some n) = (n :: rest).getLast?.or previous := by
        rw [List.getLast?_cons]
        cases rest.getLast? <;> rfl
      simp only [List.cons_append, Hears, ih, hlast, List.foldl_cons, and_assoc]

/-- Whatever is heard in its place goes on from what was heard before. -/
theorem follows_of_hears {before after : List Notice} {n : Notice}
    (h : r.Hears primary none (before ++ n :: after)) :
    n.Follows primary before.getLast? (before.foldl hear r) := by
  have hrest := (hears_append.mp h).2
  rw [Option.or_none] at hrest
  exact hrest.1

end Replica

/-! ## What is told of one device -/

/-- A device that is no member does not play. -/
theorem playState_stranger (h : Orderly m) (hd : d ∉ m.members) :
    m.replica.playState d = .notPlaying :=
  if_neg fun hplay => hd (h.playing_member hplay)

theorem state_hear_self : (r.hear (.link d old new)).state d = new := if_pos rfl

theorem state_hear_of_ne (hne : e ≠ d) : (r.hear (.link d old new)).state e = r.state e :=
  if_neg hne

theorem follows_change (hold : r.state d = old) (hchange : old.mayBecome new = true)
    (hnew : new ≠ .disconnected) : (Notice.link d old new).Follows primary previous r :=
  .link hchange hold.symm fun hdown => absurd hdown hnew

/-- A link that was being brought up is told to be down. -/
theorem follows_givenUp (h : Orderly m)
    (hflight : m.outgoingDevice = some d ∨ m.incoming = some d) :
    (Notice.link d .connecting .disconnected).Follows primary previous m.replica := by
  have hd : d ∉ m.members := hflight.elim (fun hout => (h.outgoing_fresh hout).1) h.incoming_fresh
  exact .link rfl (linkState_inFlight hd (h.not_leaving hd) hflight).symm
    fun _ => playState_stranger h hd

/-- A link that was being brought up is told to be up. -/
theorem follows_linked (h : Orderly m)
    (hflight : m.outgoingDevice = some d ∨ m.incoming = some d) :
    (Notice.link d .connecting .connected).Follows primary previous m.replica := by
  have hd : d ∉ m.members := hflight.elim (fun hout => (h.outgoing_fresh hout).1) h.incoming_fresh
  exact follows_change (linkState_inFlight hd (h.not_leaving hd) hflight) rfl (by simp)

/-- A stable machine tells of a link that begins and, where it comes to nothing, of its end. -/
theorem hears_attempt (h : Orderly m) (hstable : m.isStable = true) (hd : d ∉ m.members) :
    m.replica.Hears primary previous
      [.link d .disconnected .connecting, .link d .connecting .disconnected] := by
  obtain ⟨hout, hin, _⟩ := Roles.isStable_iff.mp hstable
  have hstate : m.replica.state d = .disconnected :=
    linkState_stranger hd (h.not_leaving hd) (by simp [Roles.outgoingDevice, hout]) (by simp [hin])
  have hsilent : m.replica.playState d = .notPlaying := playState_stranger h hd
  exact ⟨follows_change hstate rfl (by simp), .link rfl state_hear_self.symm fun _ => hsilent,
    trivial⟩

/-- A stable machine tells of a member that begins to go and, where it stays, of that. -/
theorem hears_parting (hstable : m.isStable = true) (hd : d ∈ m.members) :
    m.replica.Hears primary previous
      [.link d .connected .disconnecting, .link d .disconnecting .connected] := by
  obtain ⟨_, _, hleave⟩ := Roles.isStable_iff.mp hstable
  have hstate : m.replica.state d = .connected := linkState_member hd (by simp [hleave])
  exact ⟨follows_change hstate rfl (by simp), follows_change state_hear_self rfl (by simp),
    trivial⟩

/-! ## Devices that fall silent or leave -/

theorem hears_hush (hplaying : r.playing = m.playing) :
    r.Hears primary previous ((m.hush d).filterMap Effect.notice?) := by
  unfold Machine.hush
  split
  · next hd =>
    have hd : r.playState d = .playing := if_pos (hplaying ▸ hd)
    exact ⟨.play hd.symm (by simp), trivial⟩
  · trivial

/-- After it, the device is told to be silent, and nothing else was told. -/
theorem foldl_hush (hplaying : r.playing = m.playing) :
    ((m.hush d).filterMap Effect.notice?).foldl Replica.hear r
      = { r with playing := r.playing.erase d } :=
  follow_hush hplaying

/-- The heir of a device is another member, and stays. -/
theorem heir_stays (hnext : (m.without d).newestSettled = some e) :
    e ∈ m.members ∧ e ≠ d ∧ m.leaving ≠ some e := by
  obtain ⟨hmem, hleave⟩ := Roles.mem_of_newestSettled hnext
  obtain ⟨hmem, hne⟩ := List.mem_filter.mp hmem
  exact ⟨hmem, by simpa using hne, hleave⟩

/-- A device is told to be gone once it is silent, and its heir to be linked after that. -/
theorem hears_farewell (hold : r.state d = old) (hchange : old.mayBecome .disconnected = true)
    (hplaying : r.playing = m.playing)
    (hheir : ∀ e, (m.without d).newestSettled = some e → r.state e = .connected) :
    r.Hears m.primary previous ((m.farewell d old).filterMap Effect.notice?) := by
  rw [Machine.farewell, List.filterMap_append, Replica.hears_append, foldl_hush hplaying]
  refine ⟨hears_hush hplaying, .link hchange hold.symm fun _ => if_neg (by simp), ?_⟩
  unfold Machine.succession
  split
  · next hprimary =>
    cases hnext : (m.without d).newestSettled with
    | none => trivial
    | some e =>
        have hsame : (r.hear (.link d old .disconnected)).state e = r.state e :=
          state_hear_of_ne (heir_stays hnext).2.1
        exact ⟨.heir hprimary rfl (hsame.trans (hheir e hnext)), trivial⟩
  · trivial

theorem hears_gone (hleave : m.leaving = some d) :
    m.replica.Hears m.primary previous
      (((m.endParting d).farewell d .disconnecting).filterMap Effect.notice?) := by
  have hold : m.replica.state d = .disconnecting := linkState_leaving hleave
  refine hears_farewell (m := m.endParting d) hold rfl rfl fun e hnext => ?_
  obtain ⟨hmem, hne, _⟩ := heir_stays hnext
  exact linkState_member hmem (by simpa [hleave] using hne.symm)

theorem hears_dropped (hd : d ∈ m.members) (hleave : m.leaving ≠ some d) :
    m.replica.Hears m.primary previous ((m.farewell d .connected).filterMap Effect.notice?) := by
  have hold : m.replica.state d = .connected := linkState_member hd hleave
  refine hears_farewell hold rfl rfl fun e hnext => ?_
  obtain ⟨hmem, _, hstays⟩ := heir_stays hnext
  exact linkState_member hmem hstays

theorem hears_parted (h : Consistent m) (hleave : m.leaving = some d)
    (hp : Parted env m d es m') :
    m.replica.Hears m.primary previous (es.filterMap Effect.notice?) := by
  have hgone : m.replica.Hears m.primary previous
      (((m.endParting d).farewell d .disconnecting).filterMap Effect.notice?) := hears_gone hleave
  cases hp with
  | vacated => exact hgone
  | requested =>
      rw [List.filterMap_append, Replica.hears_append]
      exact ⟨hgone, trivial⟩
  | refused hout =>
      rw [List.filterMap_append, Replica.hears_append]
      have hknown : (((m.endParting d).farewell d .disconnecting).filterMap Effect.notice?).foldl
          Replica.hear m.replica = ((m.endParting d).expel d).replica := follow_gone h hleave
      rw [hknown]
      have hdevice := Roles.outgoingDevice_eq hout
      exact ⟨hgone, follows_givenUp (orderly_parted h.toOrderly) (Or.inl hdevice), trivial⟩

/-! ## Every outcome -/

/-- A request brings nobody to inherit a role. -/
theorem hears_request {q : Request} (h : Consistent m) (ho : Outcome env m (.request q) es m') :
    m.replica.Hears primary previous (es.filterMap Effect.notice?) := by
  cases ho with
  | nothing | connectDeferred | disconnectDeferred => trivial
  | linkRefused hstable hd | evictionRefused hstable hd =>
      exact hears_attempt h.toOrderly hstable hd
  | noVictim hstable _ hnone => exact hears_attempt h.toOrderly hstable (by simp [hnone])
  | linkRequested hstable hd =>
      exact ⟨(hears_attempt h.toOrderly hstable hd).1, trivial⟩
  | @evictionBegun d v hstable hd _ hv =>
      have hv := List.mem_of_mem_head? hv
      have hne : v ≠ d := fun hvd => hd (hvd ▸ hv)
      have hold : m.replica.state v = .connected :=
        linkState_member hv (by simp [(Roles.isStable_iff.mp hstable).2.2])
      rw [List.filterMap_append, Replica.hears_append]
      exact ⟨⟨(hears_attempt h.toOrderly hstable hd).1,
        follows_change ((state_hear_of_ne hne).trans hold) rfl (by simp), trivial⟩, hears_hush rfl⟩
  | withdrawn hout =>
      exact ⟨follows_givenUp h.toOrderly (Or.inl (Roles.outgoingDevice_eq hout)), trivial⟩
  | partingRefused hstable hd => exact hears_parting hstable hd
  | partingBegun hstable hd =>
      rw [List.filterMap_append, Replica.hears_append]
      exact ⟨⟨(hears_parting hstable hd).1, trivial⟩, hears_hush rfl⟩

theorem hears_stopped {es' : List Effect} {m₁ m₂ : Machine} (h : Consistent m)
    (hout : OutgoingDropped env m es m₁) (hin : IncomingDropped env m₁ es' m₂) :
    m.replica.Hears primary previous ((es ++ es').filterMap Effect.notice?) := by
  obtain ⟨h₁, hknown⟩ := follow_dropped h hout
  have hknown : (es.filterMap Effect.notice?).foldl Replica.hear m.replica = m₁.replica := hknown
  rw [List.filterMap_append, Replica.hears_append, hknown]
  constructor
  · cases hout with
    | absent => trivial
    | awaiting hout | requested hout =>
        exact ⟨follows_givenUp h.toOrderly (Or.inl (Roles.outgoingDevice_eq hout)), trivial⟩
  · cases hin with
    | absent => trivial
    | present hin => exact ⟨follows_givenUp h₁ (Or.inr hin), trivial⟩

/-- **Whatever is told about a message goes on from what was told before it.** -/
theorem hears_outcome {msg : Message} (h : Consistent m) (ho : Outcome env m msg es m') :
    m.replica.Hears m.primary previous (es.filterMap Effect.notice?) := by
  have ho' := h.toOrderly
  have hwhole := ho
  cases ho with
  | nothing | comingRejected | incomingRefused | upRejected | answered | nothingExpired => trivial
  | parted hleave hp | partingExpired _ hleave hp => exact hears_parted h hleave hp
  | dropped hd hleave => exact hears_dropped hd hleave
  | linkFailed hout | linkedEarly hout => exact ⟨follows_givenUp ho' (Or.inl hout), trivial⟩
  | linkExpired _ hout =>
      exact ⟨follows_givenUp ho' (Or.inl (Roles.outgoingDevice_eq hout)), trivial⟩
  | incomingFailed hin | incomingExpired _ hin =>
      exact ⟨follows_givenUp ho' (Or.inr hin), trivial⟩
  | incomingBegun hd hflight | admitted hd hflight =>
      obtain ⟨hout, hin⟩ := Roles.isInFlight_eq_false_iff.mp hflight
      have hold := linkState_stranger hd (ho'.not_leaving hd) hout hin
      exact ⟨follows_change hold rfl (by simp), trivial⟩
  | linked hout => exact ⟨follows_linked ho' (Or.inl hout), trivial⟩
  | incomingLinked hin => exact ⟨follows_linked ho' (Or.inr hin), trivial⟩
  | stayed hleave => exact ⟨follows_change (linkState_leaving hleave) rfl (by simp), trivial⟩
  | @stayedAgainst d e hout =>
      have hleave := h.awaiting hout
      have hknown := hear_endParting (h.leaving_member hleave) hleave
      refine ⟨follows_change (linkState_leaving hleave) rfl (by simp), ?_, trivial⟩
      rw [hknown]
      exact follows_givenUp (orderly_endParting ho') (Or.inl (Roles.outgoingDevice_eq hout))
  | @played d _ hd hsilent =>
      have hold : m.replica.playState d = .notPlaying := if_neg hsilent
      exact ⟨.play hold.symm (by simp), trivial⟩
  | silenced => exact hears_hush rfl
  | formatSet => exact ⟨.format, trivial⟩
  | @evictionExpired d v _ _ hout =>
      have hdevice := Roles.outgoingDevice_eq hout
      -- with the device given up, its victim goes like any other member
      refine ⟨follows_givenUp ho' (Or.inl hdevice), ?_⟩
      rw [hear_abandon ho' hdevice]
      exact hears_gone (m := m.abandon d) (h.awaiting hout)
  | stopped hout hin => exact hears_stopped h hout hin
  | _ => exact hears_request h hwhole

/-! ## Every run -/

theorem hears_replay {rs : List Request} (h : Consistent m) (hr : Replay env m rs es m') :
    m.replica.Hears primary previous (es.filterMap Effect.notice?) := by
  induction hr generalizing previous with
  | idle | busy => trivial
  | @next m m₁ m₂ q rest _ _ _ _ _ _ ho _ ih =>
      have hcut := consistent_deferred rest h
      have hknown : m.replica.follow _ = m₁.replica :=
        follow_outcome (m := { m with deferred := rest }) hcut ho
      rw [List.filterMap_append, Replica.hears_append]
      refine ⟨hears_request (m := { m with deferred := rest }) hcut ho, ?_⟩
      rw [show (List.filterMap Effect.notice? _).foldl Replica.hear m.replica = m₁.replica from
        hknown]
      exact ih (consistent_outcome hcut ho)

theorem hears_handle (env : Surroundings) (msg : Message) (h : Consistent m) :
    m.replica.Hears m.primary none (m.handle env msg).notices := by
  cases hrun : m.stopped with
  | true =>
      rw [handle_stopped msg hrun]
      trivial
  | false =>
      obtain ⟨es, m₁, rs, es', m₂, heq, ho, hr⟩ := handle_cases env msg h hrun
      have hknown : m.replica.follow es = m₁.replica := follow_outcome h ho
      rw [heq, Turn.notices, List.filterMap_append, Replica.hears_append]
      refine ⟨hears_outcome h ho, ?_⟩
      rw [show (es.filterMap Effect.notice?).foldl Replica.hear m.replica = m₁.replica from hknown]
      exact hears_replay (consistent_outcome h ho) hr

/-- **Every notice of every run goes on from what was told before it**: of a link, a change
that it can make, from the state that was told last; of playing, a change from what was told
last; and nobody is told to be gone who was not told to be silent. Only an heir of the primary
member is told of twice, right after that member was told to be gone. -/
theorem every_notice_goes_on (capacity : Nat) (timeout : Duration) (policy : Policy)
    (occasions : List (Surroundings × Message)) (env : Surroundings) (msg : Message)
    {before after : List Notice} {n : Notice} :
    let t := (Machine.fresh capacity timeout policy).run occasions
    (t.machine.handle env msg).notices = before ++ n :: after →
      n.Follows t.machine.primary before.getLast?
        ((t.notices ++ before).foldl Replica.hear {}) := by
  intro t hsplit
  have hc : Consistent t.machine := consistent_run capacity timeout policy occasions
  have hknown : t.notices.foldl Replica.hear {} = t.machine.replica :=
    (informed_run capacity timeout policy occasions).replica
  rw [List.foldl_append, hknown]
  exact Replica.follows_of_hears (hsplit ▸ hears_handle env msg hc)

/-- The primary one of two members is dropped: the other is told to be linked once more. -/
theorem heir_is_told_again :
    let env := ({} : ScriptedStack).surroundings ({} : Registry).facts
    let first := Address.of 0 0 0 0 0 1
    let second := Address.of 0 0 0 0 0 2
    let t := (Machine.fresh 2 (.ofMillis 30000) ⟨false⟩).run
      [(env, .request (.connect first)), (env, .event (.link first .connected)),
        (env, .request (.connect second)), (env, .event (.link second .connected))]
    let gone := Notice.link second .connected .disconnected
    (t.machine.handle env (.event (.link second .disconnected))).notices
        = [gone] ++ [.link first .disconnected .connected]
      ∧ (Notice.link first .disconnected .connected).Follows t.machine.primary (some gone)
          ((t.notices ++ [gone]).foldl Replica.hear {}) := by
  intro env first second t gone
  have htold : (t.machine.handle env (.event (.link second .disconnected))).notices
      = [gone] ++ [.link first .disconnected .connected] := by decide +kernel
  -- the run is arbitrary here, or it would be carried out to compare the two statements
  have hfollows : ∀ {occasions} {t' : Turn},
      t' = (Machine.fresh 2 (.ofMillis 30000) ⟨false⟩).run occasions →
      (t'.machine.handle env (.event (.link second .disconnected))).notices
        = [gone] ++ [.link first .disconnected .connected] →
      (Notice.link first .disconnected .connected).Follows t'.machine.primary (some gone)
        ((t'.notices ++ [gone]).foldl Replica.hear {}) := by
    rintro occasions t' rfl htold
    exact every_notice_goes_on 2 (.ofMillis 30000) ⟨false⟩ occasions env _ htold
  exact ⟨htold, hfollows rfl htold⟩

end AudioLink
