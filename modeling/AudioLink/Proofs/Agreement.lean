import AudioLink.Proofs.Tandem
import AudioLink.Stack.Scripted

/-!
# The machine knows the links of its stack

Requests and reports cross: a link that is asked for may come up by itself and be dropped
while the confirmation is on its way, and an operation may be given up before the stack
reports that it was carried out. The machine can be wrong about a link for as long as
reports about it wait, but not longer.

The invariant is about one device at a time. While a report about it is on its way, the
last one tells what the link is. Once none is, the machine is at rest about the device: it
expects nothing of it, and lists it as a member exactly if its link is up. A message
disturbs that rest only by a request that the stack accepts, and which it will confirm; the
last report on its way restores it.
-/

namespace AudioLink

variable {env : Surroundings} {m m' : Machine} {d e v : Address} {up : Prop} {msg : Message}
  {es : List Effect}

/-- The machine expects nothing of the device and is right about whether its link is up. -/
structure Rests (m : Machine) (d : Address) (up : Prop) : Prop where
  member : d ∈ m.members ↔ up
  outgoing : m.outgoing ≠ some ⟨d, .requested⟩
  incoming : m.incoming ≠ some d
  leaving : m.leaving ≠ some d

/-- The machine rests about the device, unless the stack has just accepted a request about it. -/
def Settles (es : List Effect) (m : Machine) (d : Address) (up : Prop) : Prop :=
  (∃ r ∈ es.filterMap Effect.accepted?, r.device = d) ∨ Rests m d up

theorem settles_append {es' : List Effect} (h : Settles es m d up)
    (h' : Rests m d up → Settles es' m' d up) : Settles (es ++ es') m' d up := by
  unfold Settles at *
  simp only [List.filterMap_append, List.mem_append]
  rcases h with ⟨r, hr, hd⟩ | hrest
  · exact Or.inl ⟨r, Or.inl hr, hd⟩
  · rcases h' hrest with ⟨r, hr, hd⟩ | hrest'
    · exact Or.inl ⟨r, Or.inr hr, hd⟩
    · exact Or.inr hrest'

/-- The stack will confirm what it has accepted. -/
theorem settles_of_asked {r : Request} {a : Bool} {roles : Roles} (hd : r.device = d)
    (hes : .request r a roles ∈ es) (ha : a = true) : Settles es m d up :=
  Or.inl ⟨r, List.mem_filterMap.mpr ⟨_, hes, by rw [ha]; rfl⟩, hd⟩

theorem settles_unless {r : Request} {roles : Roles} (hes : .request r true roles ∈ es)
    (h : r.device ≠ d → Rests m d up) : Settles es m d up := by
  by_cases hd : r.device = d
  · exact settles_of_asked hd hes rfl
  · exact Or.inr (h hd)

/-- A cooperative stack does not refuse to take a link down. -/
theorem accepts_of_answers {a : Bool} (henv : env.Cooperative)
    (hans : env.Answers (.disconnect d) a) : a = true := by
  obtain ⟨n, hn⟩ := hans
  rw [← hn, henv]

/-! ## What the changes keep -/

theorem rests_awaitLink (h : Rests m d up) (hne : e ≠ d) : Rests (m.awaitLink e) d up :=
  { h with outgoing := by simp [Machine.awaitLink, hne] }

theorem rests_abandon (h : Rests m d up) : Rests (m.abandon e) d up :=
  { h with outgoing := by simp [Machine.abandon] }

theorem rests_receive (h : Rests m d up) (hne : e ≠ d) : Rests (m.receive e) d up :=
  { h with incoming := by simp [Machine.receive, hne] }

theorem rests_lose (h : Rests m d up) : Rests (m.lose e) d up :=
  { h with incoming := by simp [Machine.lose] }

theorem rests_beginParting (h : Rests m d up) (hne : e ≠ d) : Rests (m.beginParting e) d up :=
  { h with leaving := by simp [Machine.beginParting, hne] }

theorem rests_beginEviction (h : Rests m d up) (hne : v ≠ d) :
    Rests (m.beginEviction v e) d up :=
  { rests_beginParting h hne with outgoing := by simp [Machine.beginEviction] }

theorem rests_endParting (h : Rests m d up) : Rests (m.endParting e) d up :=
  { h with leaving := by simp [Machine.endParting] }

theorem rests_enlist (h : Rests m d up) (hne : e ≠ d) : Rests (m.enlist e) d up :=
  { h with member := by simp [Machine.mem_enlist, h.member, hne.symm] }

theorem rests_completeOutgoing (h : Rests m d up) (hne : e ≠ d) :
    Rests (m.completeOutgoing e) d up :=
  { rests_enlist h hne with outgoing := by simp [Machine.completeOutgoing, Machine.enlist] }

theorem rests_completeIncoming (h : Rests m d up) (hne : e ≠ d) :
    Rests (m.completeIncoming e) d up :=
  { rests_enlist h hne with incoming := by simp [Machine.completeIncoming, Machine.enlist] }

theorem rests_expel (h : Rests m d up) (hne : e ≠ d) : Rests (m.expel e) d up :=
  { h with member := by simp [Machine.mem_expel, h.member, hne.symm] }

theorem settles_parted (h : Rests m d up) (hne : v ≠ d) (hp : Parted env m v es m') :
    Settles es m' d up := by
  have hgone : Rests ((m.endParting v).expel v) d up := rests_expel (rests_endParting h) hne
  cases hp with
  | vacated => exact Or.inr hgone
  | requested =>
      exact settles_unless (List.mem_append_right _ List.mem_cons_self) (rests_awaitLink hgone)
  | refused => exact Or.inr (rests_abandon hgone)

/-! ## A message about something else -/

/-- **Rest about a device is kept by a message that tells nothing of its link**, unless the
stack is asked about the device and accepts. -/
theorem settles_outcome (h : Rests m d up) (hc : Consistent m) (hrun : msg ≠ .shutdown)
    (htell : msg.verdict? d = none) (hcoming : msg ≠ .event (.link d .connecting))
    (ho : Outcome env m msg es m') : Settles es m' d up := by
  -- a report about a link that tells nothing of this one is about another device
  have hother : ∀ {e b}, (if e = d then some b else none) = (none : Option Bool) → e ≠ d :=
    fun hif he => by simp [he] at hif
  cases ho with
  | connectDeferred | disconnectDeferred | nothingExpired => exact Or.inr { h with }
  | linkRequested =>
      exact settles_unless (List.mem_cons_of_mem _ List.mem_cons_self) (rests_awaitLink h)
  | evictionBegun =>
      exact settles_unless (List.mem_cons_of_mem _ List.mem_cons_self) (rests_beginEviction h)
  | partingBegun =>
      exact settles_unless (List.mem_cons_of_mem _ List.mem_cons_self) (rests_beginParting h)
  | withdrawn | linkFailed | linkedEarly | linkExpired => exact Or.inr (rests_abandon h)
  | parted hleave hp => exact settles_parted h (hother htell) hp
  | partingExpired _ hleave hp =>
      exact settles_parted h (fun hvd => h.leaving (hvd ▸ hleave)) hp
  | dropped => exact Or.inr (rests_expel h (hother htell))
  | incomingFailed | incomingExpired => exact Or.inr (rests_lose h)
  | @incomingBegun e =>
      exact Or.inr (rests_receive h fun hed => hcoming (by rw [hed]))
  | linked => exact Or.inr (rests_completeOutgoing h (hother htell))
  | incomingLinked => exact Or.inr (rests_completeIncoming h (hother htell))
  | stayed => exact Or.inr (rests_endParting h)
  | stayedAgainst => exact Or.inr (rests_abandon (rests_endParting h))
  | admitted => exact Or.inr (rests_enlist h (hother htell))
  | @evictionExpired e v _ _ hout =>
      -- the victim is given up before its confirmation arrives, which is still on its way
      have hvd : v ≠ d := fun hvd => h.leaving (hvd ▸ hc.awaiting hout)
      exact Or.inr (rests_expel (rests_endParting (rests_abandon h)) hvd)
  | stopped => exact absurd rfl hrun
  | _ => exact Or.inr { h with }

/-! ## The report that restores rest -/

theorem rests_of_member (h : Orderly m) (hd : d ∈ m.members) (hleave : m.leaving ≠ some d) :
    Rests m d True where
  member := iff_true_intro hd
  outgoing := fun hout => (h.not_inFlight hd).1 (Roles.outgoingDevice_eq hout)
  incoming := (h.not_inFlight hd).2
  leaving := hleave

theorem rests_enlisted (h : Orderly (m.enlist d)) (hleave : m.leaving ≠ some d) :
    Rests (m.enlist d) d True :=
  rests_of_member h (Machine.mem_enlist.mpr (Or.inr rfl)) hleave

theorem rests_of_stranger (h : Orderly m) (hd : d ∉ m.members) (hout : m.outgoingDevice ≠ some d)
    (hin : m.incoming ≠ some d) : Rests m d False where
  member := iff_false_intro hd
  outgoing := fun ho => hout (Roles.outgoingDevice_eq ho)
  incoming := hin
  leaving := h.not_leaving hd

/-- **After a report that its link is up, the machine rests about the device**, or has the
link taken down. -/
theorem settles_linkUp (hc : Consistent m) (henv : env.Cooperative)
    (ho : Outcome env m (.event (.link d .connected)) es m') : Settles es m' d True := by
  have hc' := consistent_outcome hc ho
  cases ho with
  | nothing h =>
      cases h with
      | upTwice hd hleave => exact Or.inr (rests_of_member hc.toOrderly hd hleave)
  | linked hout =>
      have hleave := hc.not_leaving (hc.outgoing_fresh hout).1
      exact Or.inr (rests_enlisted hc'.toOrderly hleave)
  | incomingLinked hin =>
      have hleave := hc.not_leaving (hc.incoming_fresh hin)
      exact Or.inr (rests_enlisted hc'.toOrderly hleave)
  | admitted hd => exact Or.inr (rests_enlisted hc'.toOrderly (hc.not_leaving hd))
  -- the link that was to go stays up, and whoever waited for its place has been told
  | stayed hleave =>
      refine Or.inr (rests_of_member hc'.toOrderly (hc.leaving_member hleave) ?_)
      simp [Machine.endParting]
  | stayedAgainst hout =>
      refine Or.inr (rests_of_member hc'.toOrderly (hc.leaving_member (hc.awaiting hout)) ?_)
      simp [Machine.abandon, Machine.endParting]
  -- the link is unwelcome: the stack agrees to take it down, and will report it
  | linkedEarly _ _ hans | incomingRefused _ _ hans | upRejected _ _ _ hans =>
      exact settles_of_asked rfl List.mem_cons_self (accepts_of_answers henv hans)

theorem rests_parted (hc : Consistent m) (hleave : m.leaving = some d)
    (hp : Parted env m d es m') : Rests m' d False := by
  have hfree := hc.not_inFlight (hc.leaving_member hleave)
  have hrest : Rests ((m.endParting d).expel d) d False :=
    rests_of_stranger (orderly_parted hc.toOrderly) (by simp [Machine.mem_expel]) hfree.1 hfree.2
  cases hp with
  | vacated => exact hrest
  | @requested e hout =>
      have hed : e ≠ d := fun hed => hfree.1 (hed ▸ Roles.outgoingDevice_eq hout)
      exact rests_awaitLink hrest hed
  | refused => exact rests_abandon hrest

/-- **After a report that its link is down, the machine rests about the device.** -/
theorem rests_linkDown (hc : Consistent m)
    (ho : Outcome env m (.event (.link d .disconnected)) es m') : Rests m' d False := by
  have hc' := consistent_outcome hc ho
  cases ho with
  | nothing h =>
      cases h with
      | strangerDown hd hflight =>
          have hfree := Roles.isInFlight_eq_false_iff.mp hflight
          exact rests_of_stranger hc.toOrderly hd hfree.1 hfree.2
  | parted hleave hp => exact rests_parted hc hleave hp
  | dropped hd =>
      have hfree := hc.not_inFlight hd
      exact rests_of_stranger hc'.toOrderly (by simp [Machine.mem_expel]) hfree.1 hfree.2
  | linkFailed hout =>
      have hfresh := hc.outgoing_fresh hout
      refine rests_of_stranger hc'.toOrderly hfresh.1 ?_ hfresh.2
      simp [Machine.abandon, Roles.outgoingDevice]
  | incomingFailed hin =>
      have hout := hc.not_outgoing hin
      refine rests_of_stranger hc'.toOrderly (hc.incoming_fresh hin) hout ?_
      simp [Machine.lose]

theorem settles_verdict {up : Bool} (hc : Consistent m) (henv : env.Cooperative)
    (htell : msg.verdict? d = some up) (ho : Outcome env m msg es m') :
    Settles es m' d (up = true) := by
  rw [Message.eq_of_verdict? htell] at ho
  cases up with
  | true => simpa using settles_linkUp hc henv ho
  | false => exact Or.inr (by simpa using rests_linkDown hc ho)

/-! ## Whole turns -/

theorem settles_replay {rs : List Request} (h : Rests m d up) (hc : Consistent m)
    (hr : Replay env m rs es m') : Settles es m' d up := by
  induction hr with
  | idle | busy => exact Or.inr h
  | @next m m₁ m₂ r rest _ _ _ _ _ _ ho hr ih =>
      have hcut := consistent_deferred rest hc
      have hrest : Rests { m with deferred := rest } d up := { h with }
      refine settles_append (settles_outcome hrest hcut (by simp) rfl (by simp) ho) fun hrest₁ => ?_
      exact ih hrest₁ (consistent_outcome hcut ho)

/-- **A turn leaves the machine at rest where the message did.** -/
theorem settles_handle (hc : Consistent m) (hrun : m.stopped = false)
    (h : ∀ {es m₁}, Outcome env m msg es m₁ → Settles es m₁ d up) :
    Settles (m.handle env msg).effects (m.handle env msg).machine d up := by
  obtain ⟨es, m₁, rs, es', m₂, heq, ho, hr⟩ := handle_cases env msg hc hrun
  rw [heq]
  exact settles_append (h ho) fun hrest => settles_replay hrest (consistent_outcome hc ho) hr

/-! ## Whole runs -/

/-- What is promised of a device holds, and the machine is at rest if nothing is. -/
structure Agrees (p : Tandem) (d : Address) : Prop where
  faithful : p.Faithful d
  resting : promised d p.mailbox = none → Rests p.machine d (d ∈ p.links)

/-- The machine is in order, and whatever it may be wrong about will be reported. -/
structure InTouch (p : Tandem) : Prop where
  consistent : Consistent p.machine
  running : p.machine.stopped = false
  patient : p.machine.isStable = true → p.machine.deferred = []
  going : ∀ msg ∈ p.mailbox, msg ≠ .shutdown
  redeemed : Redeemed p.mailbox
  agrees : ∀ d, Agrees p d

theorem agrees_handle {p : Tandem} (hfaith : p.Faithful d)
    (h : promised d p.mailbox = none →
      Settles (p.machine.handle env msg).effects (p.machine.handle env msg).machine d
        (d ∈ p.links)) : Agrees (p.handle env msg) d where
  faithful := Tandem.faithful_foldl _ hfaith
  resting := by
    intro hnone
    obtain ⟨hbefore, hfar, hlinks⟩ := Tandem.unpromised_foldl _ hnone
    rw [Tandem.handle, Tandem.machine_foldl, hlinks]
    rcases h hbefore with ⟨r, hr, hd⟩ | hrest
    · exact absurd hd (hfar r hr)
    · exact hrest

theorem inTouch_handle {p : Tandem} (hc : Consistent p.machine)
    (hrun : p.machine.stopped = false) (hmsg : msg ≠ .shutdown)
    (hgoing : ∀ msg ∈ p.mailbox, msg ≠ .shutdown) (hredeemed : Redeemed p.mailbox)
    (hagrees : ∀ d, Agrees (p.handle env msg) d) : InTouch (p.handle env msg) where
  consistent := by
    rw [Tandem.machine_handle]
    exact consistent_handle msg hc
  running := by
    rw [Tandem.machine_handle]
    exact running_handle hc hrun hmsg
  patient := by
    rw [Tandem.machine_handle]
    exact patient_handle msg hc hrun
  going := by
    intro msg' hmsg'
    rw [Tandem.handle, Tandem.mailbox_foldl] at hmsg'
    rcases List.mem_append.mp hmsg' with hold | hnew
    · exact hgoing msg' hold
    · obtain ⟨r, _, rfl⟩ := List.mem_map.mp hnew
      simp
  redeemed := by
    rw [Tandem.handle, Tandem.mailbox_foldl]
    refine redeemed_append hredeemed (redeemed_of_forall fun msg' hnew d => ?_)
    obtain ⟨r, _, rfl⟩ := List.mem_map.mp hnew
    cases r <;> simp [Request.confirmation]
  agrees := hagrees

theorem inTouch_work {p : Tandem} (h : InTouch p) (hmsg : msg.reported? = none)
    (hgoing : msg ≠ .shutdown) : InTouch (p.handle env msg) := by
  refine inTouch_handle h.consistent h.running hgoing h.going h.redeemed fun d => ?_
  refine agrees_handle (h.agrees d).faithful fun hnone => ?_
  refine settles_handle h.consistent h.running fun ho => ?_
  refine settles_outcome ((h.agrees d).resting hnone) h.consistent hgoing ?_ ?_ ho
  · exact Message.verdict?_eq_none hmsg
  · rintro rfl
    simp [Message.reported?] at hmsg

theorem inTouch_delivered {p : Tandem} {rest : List Message} (h : InTouch p)
    (henv : env.Cooperative) (hmail : p.mailbox = msg :: rest) :
    InTouch (Tandem.handle env msg { p with mailbox := rest }) := by
  have hredeemed : Redeemed (msg :: rest) := hmail ▸ h.redeemed
  have hgoing : ∀ msg' ∈ msg :: rest, msg' ≠ .shutdown := hmail ▸ h.going
  have hfirst := hgoing msg List.mem_cons_self
  refine inTouch_handle h.consistent h.running hfirst
    (fun msg' hmsg' => hgoing msg' (List.mem_cons_of_mem _ hmsg')) hredeemed.2 fun d => ?_
  have hpromised : promised d p.mailbox = (promised d rest).or (msg.verdict? d) := by
    rw [hmail, promised_cons]
  have hfaith := (h.agrees d).faithful
  refine agrees_handle (fun up hup => hfaith up ?_) fun hnone => ?_
  · rw [hpromised]
    exact Option.or_eq_some_iff.mpr (Or.inl hup)
  have hnone : promised d rest = none := hnone
  rw [hnone, Option.none_or] at hpromised
  refine settles_handle h.consistent h.running fun ho => ?_
  -- what the machine makes of the last report about a device is what the report says
  cases htell : msg.verdict? d with
  | none =>
      have hrest := (h.agrees d).resting (hpromised.trans htell)
      exact settles_outcome hrest h.consistent hfirst htell
        (fun hcoming => hredeemed.1 d hcoming hnone) ho
  | some up =>
      rw [hfaith up (hpromised.trans htell)]
      exact settles_verdict h.consistent henv htell ho

/-- **A delivery keeps the machine in touch**, be it of a report or of anything else. -/
theorem inTouch_deliver {p : Tandem} (h : InTouch p) (henv : env.Cooperative) :
    InTouch (p.deliver env) := by
  unfold Tandem.deliver
  split
  · exact h
  · next hmail => exact inTouch_delivered h henv hmail

/-- Reports keep the machine in touch if the last one about each device is true. -/
theorem inTouch_post {p : Tandem} {links : AddressSet} {mail : List Message} (h : InTouch p)
    (hgoing : ∀ msg ∈ mail, msg ≠ .shutdown) (hredeemed : Redeemed mail)
    (hnew : ∀ {d up}, promised d mail = some up → (d ∈ links ↔ up = true))
    (hold : ∀ {d}, promised d mail = none → (d ∈ links ↔ d ∈ p.links)) :
    InTouch (Tandem.post mail { p with links := links }) where
  consistent := h.consistent
  running := h.running
  patient := h.patient
  going := fun msg hmsg => (List.mem_append.mp hmsg).elim (h.going msg) (hgoing msg)
  redeemed := redeemed_append h.redeemed hredeemed
  agrees := by
    intro d
    refine ⟨fun up hup => ?_, fun hnone => ?_⟩
    · have hup : promised d (p.mailbox ++ mail) = some up := hup
      rw [promised_append] at hup
      rcases Option.or_eq_some_iff.mp hup with hup | ⟨hmail, hup⟩
      · exact hnew hup
      · exact (hold hmail).trans ((h.agrees d).faithful up hup)
    · have hnone : promised d (p.mailbox ++ mail) = none := hnone
      rw [promised_append, Option.or_eq_none_iff] at hnone
      have hrest := (h.agrees d).resting hnone.2
      exact { hrest with member := hrest.member.trans (hold hnone.1).symm }

/-- What a peer does with its own link is reported last. -/
theorem inTouch_peer {p : Tandem} {links : AddressSet} {mail : List Message} (e : Address)
    (up : Bool) (h : InTouch p) (hgoing : ∀ msg ∈ mail, msg ≠ .shutdown) (hredeemed : Redeemed mail)
    (hmail : ∀ d, promised d mail = if e = d then some up else none)
    (hlinks : ∀ d, d ∈ links ↔ if e = d then up = true else d ∈ p.links) :
    InTouch (Tandem.post mail { p with links := links }) := by
  refine inTouch_post h hgoing hredeemed (fun {d up'} hup => ?_) (fun {d} hnone => ?_)
  · rw [hmail] at hup
    obtain ⟨hd, hup⟩ := Option.ite_none_right_eq_some.mp hup
    rw [hlinks, if_pos hd, Option.some.inj hup]
  · rw [hmail] at hnone
    have hd : e ≠ d := fun hd => by simp [hd] at hnone
    rw [hlinks, if_neg hd]

theorem inTouch_comeUp {p : Tandem} (e : Address) (announced : Bool) (h : InTouch p) :
    InTouch (p.comeUp e announced) := by
  refine inTouch_peer e true h ?_ ?_ (fun d => ?_) (fun d => ?_)
  · cases announced <;> simp
  · cases announced <;> simp [Redeemed, promised_singleton, Message.verdict?]
  · cases announced <;> simp [promised_cons, Message.verdict?]
  · by_cases hd : e = d <;> simp [hd]

theorem inTouch_drop {p : Tandem} (e : Address) (h : InTouch p) : InTouch (p.drop e) := by
  refine inTouch_peer e false h ?_ ?_ (fun d => ?_) (fun d => ?_)
  · simp
  · simp [Redeemed]
  · exact promised_singleton ..
  · simp

theorem inTouch_start (capacity : Nat) (timeout : Duration) (policy : Policy) :
    InTouch { machine := .fresh capacity timeout policy } where
  consistent := consistent_fresh capacity timeout policy
  running := rfl
  patient := fun _ => rfl
  going := by simp
  redeemed := trivial
  agrees := by
    intro d
    refine ⟨by simp [Tandem.Faithful, promised], fun _ => ⟨by simp [Machine.fresh], ?_, ?_, ?_⟩⟩
    all_goals simp [Machine.fresh]

theorem inTouch_step {p p' : Tandem} (h : InTouch p) (hs : p.Step p') : InTouch p' := by
  cases hs with
  | work msg henv hmsg hgoing => exact inTouch_work h hmsg hgoing
  | deliver henv => exact inTouch_deliver h henv
  | post msg hmsg hgoing =>
      have hmail : ∀ msg' ∈ [msg], msg'.reported? = none := by simpa using hmsg
      refine inTouch_post h (by simpa using hgoing) (redeemed_of_forall ?_) ?_ fun _ => Iff.rfl
      · intro msg' hmsg' d hcoming
        have hnone := hmail msg' hmsg'
        simp [hcoming, Message.reported?] at hnone
      · intro d up hup
        simp [promised_eq_none hmail] at hup
  | comeUp e announced => exact inTouch_comeUp e announced h
  | drop e => exact inTouch_drop e h

theorem inTouch_reachable {capacity : Nat} {timeout : Duration} {policy : Policy} {p : Tandem}
    (h : Tandem.Reachable capacity timeout policy p) : InTouch p := by
  induction h with
  | start => exact inTouch_start capacity timeout policy
  | step _ hs ih => exact inTouch_step ih hs

/-! ## Agreement -/

/-- **Once no report about a link is on its way, the members are exactly the devices whose
links are up**; nothing is in flight any more, and no request waits. -/
theorem members_are_links_once_reported {capacity : Nat} {timeout : Duration} {policy : Policy}
    {p : Tandem} (h : Tandem.Reachable capacity timeout policy p)
    (hquiet : ∀ msg ∈ p.mailbox, msg.reported? = none) :
    (∀ d, d ∈ p.machine.members ↔ d ∈ p.links)
      ∧ p.machine.outgoing = none ∧ p.machine.incoming = none ∧ p.machine.leaving = none
      ∧ p.machine.deferred = [] := by
  have htouch := inTouch_reachable h
  have hrest : ∀ d, Rests p.machine d (d ∈ p.links) :=
    fun d => (htouch.agrees d).resting (promised_eq_none hquiet)
  have hin : p.machine.incoming = none :=
    Option.eq_none_iff_forall_ne_some.mpr fun d => (hrest d).incoming
  have hleave : p.machine.leaving = none :=
    Option.eq_none_iff_forall_ne_some.mpr fun d => (hrest d).leaving
  have hout : p.machine.outgoing = none := by
    refine Option.eq_none_iff_forall_ne_some.mpr fun o hout => ?_
    obtain ⟨d, stage⟩ := o
    cases stage with
    | requested => exact (hrest d).outgoing hout
    -- whoever waits for a place waits for a member on its way out, and there is none
    | awaitingEviction v => exact (hrest v).leaving (htouch.consistent.awaiting hout)
  have hstable : p.machine.isStable = true := Roles.isStable_iff.mpr ⟨hout, hin, hleave⟩
  exact ⟨fun d => (hrest d).member, hout, hin, hleave, htouch.patient hstable⟩

/-- Two devices take turns at the only place, and the second has it in the end. -/
theorem members_are_links_after_eviction :
    let env := ({} : ScriptedStack).surroundings ({} : Registry).facts
    let first := Address.of 0 0 0 0 0 1
    let second := Address.of 0 0 0 0 0 2
    let p : Tandem := { machine := .fresh 1 (.ofMillis 30000) ⟨false⟩ }
    let p := (p.handle env (.request (.connect first))).deliver env
    let p := ((p.handle env (.request (.connect second))).deliver env).deliver env
    p.machine.members = [second] ∧ ∀ d, d ∈ p.machine.members ↔ d ∈ p.links := by
  intro env first second p₀ p₁ p₂
  have henv : env.Cooperative := fun _ _ => rfl
  have h₀ : Tandem.Reachable 1 (.ofMillis 30000) ⟨false⟩ p₀ := .start
  have hfirst := h₀.step (.work (.request (.connect first)) henv rfl (by simp))
  have h₁ := hfirst.step (.deliver henv)
  have hsecond := h₁.step (.work (.request (.connect second)) henv rfl (by simp))
  have h₂ : Tandem.Reachable 1 (.ofMillis 30000) ⟨false⟩ p₂ :=
    (hsecond.step (.deliver henv)).step (.deliver henv)
  have hend : p₂.mailbox = [] ∧ p₂.machine.members = [second] := by
    constructor <;> decide +kernel
  clear_value p₂
  refine ⟨hend.2, (members_are_links_once_reported h₂ fun msg hmsg => ?_).1⟩
  rw [hend.1] at hmsg
  simp at hmsg

end AudioLink
