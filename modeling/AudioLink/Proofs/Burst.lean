import Mathlib.Data.List.DropRight
import AudioLink.Proofs.Expiry
import AudioLink.Proofs.Handshake

/-!
# A burst of requests

The host asks for many links, one after another, and the stack agrees to everything. Each
link that finds the places taken costs an eviction, which takes two confirmations, and
requests arrive in the middle of it. Still the end does not depend on when they arrive.

Everybody stands in one line: the members, the device that is being linked, the requests
that wait in the machine, those in the mailbox and those that the host has yet to post. The
line moves in two ways only. The device that is being linked joins the members, which leaves
the line as it is, and the member at the head of it goes, which cuts the line. It is cut only
while every place is taken, so in the end as many are left as there are places.
-/

namespace AudioLink

variable {env : Surroundings} {m m' : Machine} {d v : Address} {es : List Effect}
  {line devices waiting later : List Address}

/-- The stack agrees to whatever it is asked for. -/
def Surroundings.Agreeable (env : Surroundings) : Prop :=
  ∀ n r, env.accepts n r = true

theorem Surroundings.Agreeable.not_refused {r : Request} (henv : env.Agreeable) :
    ¬env.Answers r false := by
  rintro ⟨n, hn⟩
  simp [henv n r] at hn

theorem Request.exists_connect {r : Request} (h : r.wanted = true) : ∃ d, r = .connect d := by
  cases r with
  | connect d => exact ⟨d, rfl⟩
  | disconnect => simp [wanted] at h

/-! ## The line -/

/-- The devices that are to be members: the one being linked, and those that wait. -/
def Machine.coming (m : Machine) : List Address :=
  m.outgoingDevice.toList ++ m.deferred.map Request.device

theorem coming_of_stable (hstable : m.isStable = true) :
    m.coming = m.deferred.map Request.device := by
  rw [Machine.coming, Roles.outgoingDevice, (Roles.isStable_iff.mp hstable).1]
  rfl

/-- The members and the devices that wait to be members are what is left of a line, in which
`devices` came last, in one burst. -/
structure InLine (line devices : List Address) (m : Machine) (waiting : List Address) : Prop where
  /-- Who is gone has stood at the head of it. -/
  left : m.members ++ waiting <:+ line
  /-- Nobody is gone, or every place is taken or kept for the device that is being linked. -/
  whole : m.members ++ waiting = line
    ∨ m.capacity ≤ m.members.length + m.outgoing.toList.length
  /-- The newest member is primary, unless the burst has brought none yet. -/
  primary : m.primary = m.members.getLast? ∨ waiting = devices

/-- The machine is at work on a burst, of which `later` is still to come. -/
structure Rolling (line devices : List Address) (m : Machine) (later : List Address) : Prop where
  /-- Nobody is asked to go for his own sake. -/
  wanted : ∀ r ∈ m.deferred, r.wanted = true
  /-- The member that goes is the oldest, and every place is taken. -/
  evicting : ∀ v, m.leaving = some v → m.members.head? = some v
    ∧ m.capacity ≤ m.members.length ∧ ∃ d, m.outgoing = some ⟨d, .awaitingEviction v⟩
  inLine : InLine line devices m (m.coming ++ later)

theorem inLine_of_same (h : InLine line devices m waiting) (hmem : m'.members = m.members)
    (hprim : m'.primary = m.primary) (hcap : m'.capacity = m.capacity)
    (hout : m.outgoing.toList.length ≤ m'.outgoing.toList.length) :
    InLine line devices m' waiting := by
  obtain ⟨hleft, hwhole, hprimary⟩ := h
  refine ⟨by rwa [hmem], ?_, by rwa [hmem, hprim]⟩
  rw [hmem, hcap]
  exact hwhole.imp_right fun hle => by omega

/-- Nobody stands in the line twice. -/
theorem InLine.nodup (h : InLine line devices m waiting) (hline : line.Nodup) :
    (m.members ++ waiting).Nodup :=
  hline.sublist h.left.sublist

theorem InLine.stranger (h : InLine line devices m (d :: waiting)) (hline : line.Nodup) :
    d ∉ m.members := fun hd =>
  (List.nodup_append.mp (h.nodup hline)).2.2 d hd d List.mem_cons_self rfl

/-- The machine knows nothing yet of the first that is still to come. -/
theorem Rolling.unknown (h : Rolling line devices m (d :: later)) (hline : line.Nodup)
    (hin : m.incoming = none) :
    d ∉ m.members ∧ m.isInFlight d = false ∧ ∀ r ∈ m.deferred, r.device ≠ d := by
  obtain ⟨-, hwaiting, hfresh⟩ := List.nodup_append.mp (h.inLine.nodup hline)
  obtain ⟨-, -, hbehind⟩ := List.nodup_append.mp hwaiting
  have hd : d ∉ m.members := fun hd =>
    hfresh d hd d (List.mem_append_right _ List.mem_cons_self) rfl
  have hcome : d ∉ m.coming := fun hd => hbehind d hd d List.mem_cons_self rfl
  refine ⟨hd, Roles.isInFlight_eq_false_iff.mpr ⟨fun hout => hcome ?_, by simp [hin]⟩, ?_⟩
  · exact List.mem_append_left _ (Option.mem_toList.mpr hout)
  · exact fun r hr hrd => hcome (List.mem_append_right _ (List.mem_map.mpr ⟨r, hr, hrd⟩))

/-! ## Requests -/

/-- A stranger for whom nothing is in flight holds no place. -/
theorem not_held (hd : d ∉ m.members) (hflight : m.isInFlight d = false) :
    ¬(m.isSettled d = true ∨ m.isInFlight d = true) := by
  simp [Roles.isSettled, hd, hflight]

/-- A stable machine that is asked for a link asks the stack for it, or for the oldest member
to go where every place is taken. -/
theorem asked_outcome (henv : env.Agreeable) (hcap : 1 ≤ m.capacity) (hstable : m.isStable = true)
    (hd : d ∉ m.members) (ho : Outcome env m (.request (.connect d)) es m') :
    m'.outgoingDevice = some d ∧ ∀ v, m'.leaving = some v → m.members.head? = some v
      ∧ m.capacity ≤ m.members.length ∧ m'.outgoing = some ⟨d, .awaitingEviction v⟩ := by
  obtain ⟨hout, hin, hleave⟩ := Roles.isStable_iff.mp hstable
  have hfull : m.hasRoom = false → m.capacity ≤ m.members.length := by
    intro hfull
    have hfull : ¬m.reserved < m.capacity := of_decide_eq_false hfull
    simp only [Roles.reserved, hout, hin, Option.toList_none, List.length_nil] at hfull
    omega
  cases ho with
  | linkRequested => exact ⟨rfl, fun v hv => by simp [Machine.awaitLink, hleave] at hv⟩
  | @evictionBegun _ e _ _ hroom he =>
      refine ⟨rfl, fun v hv => ?_⟩
      obtain rfl : e = v := Option.some.inj hv
      exact ⟨he, hfull hroom, rfl⟩
  | noVictim _ hroom hnone =>
      have hlen := hfull hroom
      rw [hnone, List.length_nil] at hlen
      omega
  | linkRefused _ _ _ hacc | evictionRefused _ _ _ _ hacc => exact absurd hacc henv.not_refused
  | connectDeferred _ _ hbusy => simp [hstable] at hbusy
  | nothing h =>
      cases h with
      | held h =>
          have hflight : m.isInFlight d = false := by
            simp [Roles.isInFlight, Roles.outgoingDevice, hout, hin]
          exact absurd h (not_held hd hflight)
      | repeated hbusy => simp [hstable] at hbusy

/-- A busy machine that is asked for a link to a stranger lets the request wait. -/
theorem deferred_of_busy (hbusy : m.isStable = false) (hd : d ∉ m.members)
    (hflight : m.isInFlight d = false) (hnew : ∀ r ∈ m.deferred, r.device ≠ d)
    (ho : Outcome env m (.request (.connect d)) es m') :
    m' = { m with deferred := m.deferred ++ [.connect d] } := by
  cases ho with
  | connectDeferred => rfl
  | linkRequested hstable | linkRefused hstable | noVictim hstable | evictionRefused hstable
  | evictionBegun hstable => simp [hstable] at hbusy
  | nothing h =>
      cases h with
      | held h => exact absurd h (not_held hd hflight)
      | repeated _ h =>
          have hwaits := List.mem_reverse.mp (List.mem_of_find?_eq_some h)
          exact absurd rfl (hnew _ hwaits)

/-- A request that a stable machine begins with stays where it has stood in the line. -/
theorem rolling_begun (henv : env.Agreeable) (hcap : 1 ≤ m.capacity) (hline : line.Nodup)
    (hstable : m.isStable = true) (hwanted : ∀ r ∈ m.deferred, r.wanted = true)
    (h : InLine line devices m (d :: (m.deferred.map Request.device ++ later)))
    (ho : Outcome env m (.request (.connect d)) es m') : Rolling line devices m' later := by
  obtain ⟨hout, hevict⟩ := asked_outcome henv hcap hstable (h.stranger hline) ho
  obtain ⟨hmem, hprim⟩ := members_request ho
  have hqueue := (deferred_outcome hstable ho).1
  have hsame := (settings_outcome ho).1
  refine ⟨by rwa [hqueue], fun v hv => ?_, ?_⟩
  · obtain ⟨hhead, hfull, hwait⟩ := hevict v hv
    rw [hmem, hsame]
    exact ⟨hhead, hfull, d, hwait⟩
  · have hcoming : m'.coming ++ later = d :: (m.deferred.map Request.device ++ later) := by
      rw [Machine.coming, hout, hqueue]
      rfl
    rw [hcoming]
    exact inLine_of_same h hmem hprim hsame (by simp [(Roles.isStable_iff.mp hstable).1])

/-- So does a request that waits. -/
theorem rolling_deferred (h : Rolling line devices m (d :: later)) :
    Rolling line devices { m with deferred := m.deferred ++ [.connect d] } later := by
  refine ⟨fun r hr => ?_, h.evicting, ?_⟩
  · rcases List.mem_append.mp hr with hr | hr
    · exact h.wanted r hr
    · obtain rfl := List.mem_singleton.mp hr
      rfl
  · have hcoming : ({ m with deferred := m.deferred ++ [.connect d] } : Machine).coming ++ later
        = m.coming ++ d :: later := by
      simp [Machine.coming, Request.device, Roles.outgoingDevice]
    rw [hcoming]
    exact inLine_of_same h.inLine rfl rfl rfl (Nat.le_refl _)

/-- **A request for a link to the next in line leaves the line as it is.** -/
theorem rolling_request (henv : env.Agreeable) (hcap : 1 ≤ m.capacity) (hline : line.Nodup)
    (hpatient : m.isStable = true → m.deferred = []) (hin : m.incoming = none)
    (h : Rolling line devices m (d :: later))
    (ho : Outcome env m (.request (.connect d)) es m') : Rolling line devices m' later := by
  by_cases hstable : m.isStable = true
  · have hinLine := h.inLine
    rw [coming_of_stable hstable, hpatient hstable] at hinLine
    refine rolling_begun henv hcap hline hstable h.wanted ?_ ho
    rwa [hpatient hstable]
  · rw [Bool.not_eq_true] at hstable
    obtain ⟨hd, hflight, hnew⟩ := h.unknown hline hin
    obtain rfl := deferred_of_busy hstable hd hflight hnew ho
    exact rolling_deferred h

/-- **The request that has waited longest is begun with**, and the others wait on. -/
theorem rolling_replay {rs : List Request} (henv : env.Agreeable) (hcap : 1 ≤ m.capacity)
    (hline : line.Nodup) (h : Rolling line devices m later) (hr : Replay env m rs es m') :
    Rolling line devices m' later := by
  induction hr with
  | idle | busy => exact h
  | @next m m₁ m₂ r rest _ _ _ _ hstable hqueue ho _ ih =>
      have hwanted : ∀ q ∈ r :: rest, q.wanted = true := hqueue ▸ h.wanted
      obtain ⟨hfirst, hothers⟩ := List.forall_mem_cons.mp hwanted
      obtain ⟨d, rfl⟩ := Request.exists_connect hfirst
      have hinLine := h.inLine
      rw [coming_of_stable hstable, hqueue] at hinLine
      have hsame : m₁.capacity = m.capacity := (settings_outcome ho).1
      refine ih (hsame ▸ hcap) ?_
      refine rolling_begun (m := { m with deferred := rest }) henv hcap hline hstable hothers ?_ ho
      exact inLine_of_same hinLine rfl rfl rfl (Nat.le_refl _)

/-! ## Confirmations -/

/-- **The device whose link is up moves on to the members**, and is primary. -/
theorem rolling_linked (hc : Consistent m) (h : Rolling line devices m later)
    (hout : m.outgoing = some ⟨d, .requested⟩) :
    Rolling line devices (m.completeOutgoing d) later := by
  have hleave : m.leaving = none := hc.requested hout
  have hcoming : m.coming ++ later = d :: ((m.completeOutgoing d).coming ++ later) := by
    rw [Machine.coming, Roles.outgoingDevice_eq hout]
    rfl
  obtain ⟨hleft, hwhole, -⟩ := h.inLine
  rw [hcoming] at hleft hwhole
  have hmem : (m.completeOutgoing d).members = m.members ++ [d] := rfl
  refine ⟨h.wanted, fun v hv => ?_, ?_, ?_, Or.inl ?_⟩
  · have hv : m.leaving = some v := hv
    simp [hleave] at hv
  · rwa [hmem, List.append_assoc]
  · rw [hmem, List.append_assoc, List.length_append, List.length_singleton]
    rw [hout] at hwhole
    exact hwhole
  · rw [hmem, List.getLast?_append]
    rfl

theorem members_expel_head {rest : List Address} (hmem : m.members = v :: rest)
    (hnodup : m.members.Nodup) : (m.expel v).members = rest := by
  rw [hmem] at hnodup
  have hv := (List.nodup_cons.mp hnodup).1
  show m.members.filter (· ≠ v) = rest
  rw [hmem, List.filter_cons_of_neg (by simp)]
  refine List.filter_eq_self.mpr fun e he => decide_eq_true fun hev => hv (hev ▸ he)

/-- The newest member stays primary when the oldest goes. -/
theorem primary_expel_head {rest : List Address} (hmem : m.members = v :: rest)
    (hnodup : m.members.Nodup) (hprim : m.primary = m.members.getLast?) :
    (m.expel v).primary = rest.getLast? := by
  rw [hmem] at hprim hnodup
  have hv := (List.nodup_cons.mp hnodup).1
  cases hlast : rest.getLast? with
  | none =>
      -- nobody is left to be primary
      obtain rfl := List.getLast?_eq_none_iff.mp hlast
      have hheir : (m.without v).heir = none := by
        simp [Roles.heir, Roles.newestSettled, Roles.without, hmem]
      have hprim : m.primary = some v := hprim
      simp [Machine.expel, hprim, hheir]
  | some e =>
      rw [List.getLast?_cons, hlast] at hprim
      have hprim : m.primary = some e := hprim
      have hne : e ≠ v := fun hev => hv (hev ▸ List.mem_of_getLast? hlast)
      simp [Machine.expel, hprim, hne]

/-- **The oldest member makes way for the device that is to be linked.** -/
theorem rolling_parted (henv : env.Agreeable) (hc : Consistent m)
    (h : Rolling line devices m later) (hleave : m.leaving = some v)
    (hp : Parted env m v es m') : Rolling line devices m' later := by
  obtain ⟨hhead, hfull, d, hout⟩ := h.evicting v hleave
  obtain ⟨rest, hmem⟩ := List.head?_eq_some_iff.mp hhead
  have hnodup : m.members.Nodup := hc.nodup
  cases hp with
  | vacated hnone => simp [hout] at hnone
  | refused _ hacc => exact absurd hacc henv.not_refused
  | @requested e hout' =>
      obtain rfl : d = e := by simpa [hout] using hout'
      obtain ⟨hleft, -, hprimary⟩ := h.inLine
      have hrest : (((m.endParting v).expel v).awaitLink d).members = rest :=
        members_expel_head (m := m.endParting v) hmem hnodup
      have hcoming : (((m.endParting v).expel v).awaitLink d).coming = m.coming := by
        rw [Machine.coming, Machine.coming, Roles.outgoingDevice_eq hout]
        rfl
      refine ⟨h.wanted, fun u hu => ?_, ?_⟩
      · simp [Machine.awaitLink, Machine.expel, Machine.endParting] at hu
      · rw [hcoming]
        refine ⟨?_, Or.inr ?_, ?_⟩
        · rw [hmem] at hleft
          rw [hrest]
          exact (List.suffix_cons v _).trans hleft
        · rw [hmem, List.length_cons] at hfull
          rw [hrest]
          exact hfull
        · rw [hrest]
          exact hprimary.imp_left (primary_expel_head (m := m.endParting v) hmem hnodup)

/-! ## Whole turns -/

theorem rolling_handle_request (henv : env.Agreeable) (hcap : 1 ≤ m.capacity)
    (hline : line.Nodup) (hc : Consistent m) (hrun : m.stopped = false)
    (hpatient : m.isStable = true → m.deferred = []) (hin : m.incoming = none)
    (h : Rolling line devices m (d :: later)) :
    Rolling line devices (m.handle env (.request (.connect d))).machine later := by
  obtain ⟨es, m₁, rs, es', m₂, heq, ho, hr⟩ := handle_cases env (.request (.connect d)) hc hrun
  have h₁ := rolling_request henv hcap hline hpatient hin h ho
  have hsame := (settings_outcome ho).1
  rw [heq]
  exact rolling_replay henv (hsame ▸ hcap) hline h₁ hr

theorem rolling_handle_confirmed {r : Request} (henv : env.Agreeable) (hcap : 1 ≤ m.capacity)
    (hline : line.Nodup) (hc : Consistent m) (hf : Fits m) (hrun : m.stopped = false)
    (hwait : m.awaited = some r) (h : Rolling line devices m later) :
    Rolling line devices (m.handle env (.event r.confirmation)).machine later := by
  obtain ⟨es, m₁, rs, es', m₂, heq, ho, hr⟩ := handle_cases env (.event r.confirmation) hc hrun
  have h₁ : Rolling line devices m₁ later := by
    rcases confirmed_cases hc hf hwait ho with ⟨d, -, hout, -, rfl⟩ | ⟨v, -, hleave, hp⟩
    · exact rolling_linked hc h hout
    · exact rolling_parted henv hc h hleave hp
  have hsame := (settings_outcome ho).1
  rw [heq]
  exact rolling_replay henv (hsame ▸ hcap) hline h₁ hr

/-! ## What a message takes -/

theorem burden_request {r : Request} (ho : Outcome env m (.request r) es m') :
    m'.burden ≤ m.burden + 2 := by
  by_cases hstable : m.isStable = true
  · have hcount := pendingCount_request hstable ho
    have hqueue := (deferred_outcome hstable ho).1
    unfold Machine.burden
    rw [hqueue]
    omega
  · rw [Bool.not_eq_true] at hstable
    cases ho with
    | nothing => omega
    | connectDeferred | disconnectDeferred =>
        simp only [Machine.burden, Roles.pendingCount, List.length_append, List.length_singleton]
        omega
    | @withdrawn d _ hout =>
        have hgiven := pendingCount_abandon (d := d) hout
        have hqueue : (m.abandon d).deferred = m.deferred := rfl
        unfold Machine.burden
        rw [hqueue]
        omega
    | linkRefused h | linkRequested h | noVictim h | evictionRefused h | evictionBegun h
    | partingRefused h | partingBegun h => simp [h] at hstable

theorem pendingCount_confirmed {r : Request} (hc : Consistent m) (hf : Fits m)
    (hwait : m.awaited = some r) (ho : Outcome env m (.event r.confirmation) es m') :
    m'.pendingCount < m.pendingCount ∧ m'.deferred = m.deferred := by
  rcases confirmed_cases hc hf hwait ho with ⟨d, -, hout, -, rfl⟩ | ⟨v, -, hleave, hp⟩
  · have hcount := pendingCount_abandon (d := d) hout
    have hsame : (m.completeOutgoing d).pendingCount = (m.abandon d).pendingCount := rfl
    exact ⟨by omega, rfl⟩
  · exact pendingCount_parted hleave hp

/-- A turn about a request adds two operations at most, or a request that waits. -/
theorem burden_handle_request (env : Surroundings) (r : Request) (hc : Consistent m)
    (hrun : m.stopped = false) :
    (m.handle env (.request r)).machine.burden ≤ m.burden + 2 := by
  obtain ⟨es, m₁, ho, hturn⟩ := burden_handle env (.request r) hc hrun
  exact Nat.le_trans hturn (burden_request ho)

/-- A turn about a confirmation ends an operation. -/
theorem burden_handle_confirmed {r : Request} (env : Surroundings) (hc : Consistent m)
    (hf : Fits m) (hrun : m.stopped = false) (hwait : m.awaited = some r) :
    (m.handle env (.event r.confirmation)).machine.burden < m.burden := by
  obtain ⟨es, m₁, ho, hturn⟩ := burden_handle env (.event r.confirmation) hc hrun
  obtain ⟨hcount, hqueue⟩ := pendingCount_confirmed hc hf hwait ho
  exact Nat.lt_of_le_of_lt hturn (burden_lt hcount hqueue)

/-! ## The course of a burst -/

/-- The machine above its stack, and the devices that the host has yet to ask for. -/
structure Burst extends Tandem where
  unposted : List Address

namespace Burst

variable {b b' : Burst} {capacity n : Nat} {timeout : Duration} {policy : Policy}
  {msg : Message} {rest : List Message}

/-- The devices that the host has asked for without the machine knowing yet, and those that
it will ask for. -/
def upcoming (b : Burst) : List Address :=
  (requests b.mailbox).map Request.device ++ b.unposted

/-- The host asks for the next device, or the machine handles the message that has waited
longest. -/
inductive Step (b : Burst) : Burst → Prop where
  | post {d : Address} {rest : List Address} (hnext : b.unposted = d :: rest) :
      Step b { toTandem := b.toTandem.post [.request (.connect d)], unposted := rest }
  | deliver {env : Surroundings} (henv : env.Agreeable) (hmail : b.mailbox ≠ []) :
      Step b { toTandem := b.toTandem.deliver env, unposted := b.unposted }

/-- So many steps lead from one to the other. -/
inductive Course : Burst → Nat → Burst → Prop where
  | none {b : Burst} : Course b 0 b
  | more {b b' b'' : Burst} {n : Nat} (hs : b.Step b') (h : Course b' n b'') :
      Course b (n + 1) b''

/-- How many steps may follow: four for a device that is not asked for yet, as it may cost an
eviction. -/
def load (b : Burst) : Nat :=
  b.machine.burden + 3 * (requests b.mailbox).length + 4 * b.unposted.length

/-- The machine, its mailbox and the host are at work on a burst. -/
structure Flows (capacity : Nat) (policy : Policy) (line devices : List Address) (b : Burst) :
    Prop where
  serial : b.toTandem.Serial capacity policy
  patient : b.machine.isStable = true → b.machine.deferred = []
  wanted : ∀ r ∈ requests b.mailbox, r.wanted = true
  rolling : Rolling line devices b.machine b.upcoming

theorem flows_post (h : b.Flows capacity policy line devices) {rest : List Address}
    (hnext : b.unposted = d :: rest) :
    Flows capacity policy line devices
      { toTandem := b.toTandem.post [.request (.connect d)], unposted := rest } := by
  have hmail : requests (b.toTandem.post [.request (.connect d)]).mailbox
      = requests b.mailbox ++ [.connect d] := requests_append ..
  refine ⟨Tandem.serial_post _ h.serial, h.patient, fun r hr => ?_, ?_⟩
  · rw [hmail] at hr
    rcases List.mem_append.mp hr with hr | hr
    · exact h.wanted r hr
    · obtain rfl := List.mem_singleton.mp hr
      rfl
  · have hrolling := h.rolling
    rw [upcoming, hnext] at hrolling
    rw [upcoming, hmail, List.map_append, List.append_assoc]
    exact hrolling

/-- A message is handled, and the rest is left in the mailbox. -/
def take (env : Surroundings) (msg : Message) (rest : List Message) (b : Burst) : Burst where
  toTandem := { b.toTandem with mailbox := rest }.handle env msg
  unposted := b.unposted

theorem machine_take (env : Surroundings) (msg : Message) (rest : List Message) (b : Burst) :
    (b.take env msg rest).machine = (b.machine.handle env msg).machine :=
  Tandem.machine_handle ..

theorem requests_take (env : Surroundings) (msg : Message) (rest : List Message) (b : Burst) :
    requests (b.take env msg rest).mailbox = requests rest :=
  Tandem.requests_handle ..

theorem flows_take (h : b.Flows capacity policy line devices)
    (hserial : (b.take env msg rest).toTandem.Serial capacity policy)
    (hwanted : ∀ r ∈ requests rest, r.wanted = true)
    (hrolling : Rolling line devices (b.machine.handle env msg).machine
      ((requests rest).map Request.device ++ b.unposted)) :
    (b.take env msg rest).Flows capacity policy line devices := by
  refine ⟨hserial, ?_, ?_, ?_⟩
  · rw [machine_take]
    exact patient_handle msg h.serial.consistent h.serial.running
  · rw [requests_take]
    exact hwanted
  · rw [upcoming, machine_take, requests_take]
    exact hrolling

theorem load_take (env : Surroundings) (msg : Message) (rest : List Message) (b : Burst) :
    (b.take env msg rest).load = (b.machine.handle env msg).machine.burden
      + 3 * (requests rest).length + 4 * b.unposted.length := by
  rw [load, machine_take, requests_take]
  rfl

section Step

variable (hcap : 1 ≤ capacity) (hline : line.Nodup) (h : b.Flows capacity policy line devices)

include hcap hline h

theorem flows_request {r : Request} (henv : env.Agreeable) (hmail : b.mailbox = .request r :: rest)
    (hrest : Tandem.Serial capacity policy { b.toTandem with mailbox := rest }) :
    (b.take env (.request r) rest).Flows capacity policy line devices
      ∧ (b.take env (.request r) rest).load < b.load := by
  have hfront : requests b.mailbox = r :: requests rest := by rw [hmail]; rfl
  have hwanted := h.wanted
  have hrolling := h.rolling
  rw [hfront] at hwanted
  rw [upcoming, hfront] at hrolling
  obtain ⟨hr, hothers⟩ := List.forall_mem_cons.mp hwanted
  obtain ⟨d, rfl⟩ := Request.exists_connect hr
  have hcap : 1 ≤ b.machine.capacity := h.serial.provided.capacity_eq ▸ hcap
  refine ⟨flows_take h (Tandem.serial_request env _ hrest) hothers ?_, ?_⟩
  · exact rolling_handle_request henv hcap hline h.serial.consistent h.serial.running h.patient
      h.serial.incoming hrolling
  · have hburden := burden_handle_request env (.connect d) h.serial.consistent h.serial.running
    rw [load_take, load, hfront, List.length_cons]
    omega

theorem flows_confirmed {r : Request} (henv : env.Agreeable)
    (hmail : b.mailbox = .event r.confirmation :: rest) (hwait : b.machine.awaited = some r)
    (hrest : reports rest = []) :
    (b.take env (.event r.confirmation) rest).Flows capacity policy line devices
      ∧ (b.take env (.event r.confirmation) rest).load < b.load := by
  have hfront : requests b.mailbox = requests rest := by rw [hmail]; rfl
  have hwanted := h.wanted
  have hrolling := h.rolling
  rw [hfront] at hwanted
  rw [upcoming, hfront] at hrolling
  have hf := h.serial.provided.fits
  have hcap : 1 ≤ b.machine.capacity := h.serial.provided.capacity_eq ▸ hcap
  refine ⟨flows_take h (Tandem.serial_confirmed env h.serial hwait hrest) hwanted ?_, ?_⟩
  · exact rolling_handle_confirmed henv hcap hline h.serial.consistent hf h.serial.running hwait
      hrolling
  · have hburden := burden_handle_confirmed env h.serial.consistent hf h.serial.running hwait
    rw [load_take, load, hfront]
    omega

/-- **Every step keeps the line moving, and takes something of the load.** -/
theorem flows_step (hs : b.Step b') :
    b'.Flows capacity policy line devices ∧ b'.load < b.load := by
  cases hs with
  | @post d rest hnext =>
      refine ⟨flows_post h hnext, ?_⟩
      have hmail : requests (b.toTandem.post [.request (.connect d)]).mailbox
          = requests b.mailbox ++ [.connect d] := requests_append ..
      rw [load, load, hmail, hnext]
      show b.machine.burden + _ + _ < _
      simp only [List.length_append, List.length_cons, List.length_nil]
      omega
  | @deliver env henv hmail =>
      obtain ⟨msg, rest, hmail⟩ := List.exists_cons_of_ne_nil hmail
      have hdeliver : b.toTandem.deliver env = (b.take env msg rest).toTandem := by
        rw [Tandem.deliver, hmail]
        rfl
      rw [hdeliver]
      rcases h.serial.front hmail with ⟨r, rfl, hrest⟩ | ⟨r, hwait, rfl, hrest⟩
      · exact flows_request hcap hline h henv hmail hrest
      · exact flows_confirmed hcap hline h henv hmail hwait hrest

theorem flows_course (hs : b.Course n b') :
    b'.Flows capacity policy line devices ∧ n + b'.load ≤ b.load := by
  induction hs with
  | none => exact ⟨h, by omega⟩
  | more hs _ ih =>
      obtain ⟨hnext, hlt⟩ := flows_step hcap hline h hs
      obtain ⟨hend, hle⟩ := ih hnext
      exact ⟨hend, by omega⟩

/-- A burst can always go on until nothing is left of it. -/
theorem course_ends (henv : env.Agreeable) :
    ∃ n b', b.Course n b' ∧ b'.mailbox = [] ∧ b'.unposted = [] := by
  induction hload : b.load using Nat.strong_induction_on generalizing b with
  | _ k ih =>
      by_cases hdone : b.mailbox = [] ∧ b.unposted = []
      · exact ⟨0, b, .none, hdone⟩
      · have hnext : ∃ b', b.Step b' := by
          by_cases hmail : b.mailbox = []
          · obtain ⟨d, rest, hnext⟩ := List.exists_cons_of_ne_nil fun hnone => hdone ⟨hmail, hnone⟩
            exact ⟨_, .post hnext⟩
          · exact ⟨_, .deliver henv hmail⟩
        obtain ⟨b', hs⟩ := hnext
        obtain ⟨h', hlt⟩ := flows_step hcap hline h hs
        obtain ⟨n, b'', hrest, hend⟩ := ih b'.load (hload ▸ hlt) h' rfl
        exact ⟨n + 1, b'', .more hs hrest, hend⟩

end Step

end Burst

/-! ## The end of a burst -/

/-- A machine that waits for nothing has nothing in flight. -/
theorem stable_of_awaited (hc : Consistent m) (hin : m.incoming = none)
    (hwait : m.awaited = none) : m.isStable = true := by
  have hasked : ∀ d, m.outgoing ≠ some ⟨d, .requested⟩ := fun d hout => by
    simp [Roles.awaited_of_requested hout] at hwait
  have hleave : m.leaving = none := by
    rw [Roles.awaited_of_leaving hasked] at hwait
    exact Option.map_eq_none_iff.mp hwait
  have hout : m.outgoing = none := by
    refine Option.eq_none_iff_forall_ne_some.mpr fun o hout => ?_
    obtain ⟨d, stage⟩ := o
    cases stage with
    | requested => exact hasked d hout
    | awaitingEviction v => simp [hc.awaiting hout] at hleave
  exact Roles.isStable_iff.mpr ⟨hout, hin, hleave⟩

/-- What is left of the line when nobody waits any more is as long as there are places. -/
theorem InLine.members_eq (h : InLine line devices m []) (hf : Fits m) (hout : m.outgoing = none) :
    m.members = line.rtake m.capacity := by
  have hmembers := hf.members
  obtain ⟨hleft, hwhole, -⟩ := h
  rw [List.append_nil] at hleft hwhole
  rw [List.rtake]
  rcases hwhole with hwhole | hfull
  · have hnone : line.length - m.capacity = 0 := by
      rw [← hwhole]
      omega
    rw [hnone, hwhole]
    rfl
  · rw [hout] at hfull
    have hfull : m.capacity ≤ m.members.length := hfull
    have hlen : m.members.length = m.capacity := by omega
    rw [← hlen]
    exact List.suffix_iff_eq_drop.mp hleft

/-- When nothing is left of a burst, nobody waits any more. -/
theorem Burst.Flows.ended {capacity : Nat} {policy : Policy} {b : Burst}
    (h : b.Flows capacity policy line devices) (hmail : b.mailbox = [])
    (hposted : b.unposted = []) :
    b.machine.isStable = true ∧ b.machine.deferred = [] ∧ InLine line devices b.machine [] := by
  have hwait : b.machine.awaited = none := by
    have hconfirms := h.serial.confirms
    rw [hmail] at hconfirms
    exact Option.toList_eq_nil_iff.mp (List.map_eq_nil_iff.mp hconfirms.symm)
  have hstable := stable_of_awaited h.serial.consistent h.serial.incoming hwait
  have hqueue := h.patient hstable
  have hnobody : b.machine.coming ++ b.upcoming = [] := by
    rw [coming_of_stable hstable, hqueue, Burst.upcoming, hmail, hposted]
    rfl
  exact ⟨hstable, hqueue, hnobody ▸ h.rolling.inLine⟩

/-- A burst has begun when the host has decided on the devices. -/
theorem flows_start {capacity : Nat} {policy : Policy} {links : AddressSet}
    (hc : Consistent m) (hp : Provided capacity policy m) (hq : Queued m)
    (hrun : m.stopped = false) (hstable : m.isStable = true) :
    Burst.Flows capacity policy (m.members ++ devices) devices
      { machine := m, links := links, unposted := devices } := by
  obtain ⟨-, hin, hleave⟩ := Roles.isStable_iff.mp hstable
  have hqueue := hq.patient hrun hstable
  refine ⟨⟨hc, hp, hrun, hin, ?_⟩, fun _ => hqueue, by simp [requests], ⟨?_, ?_, ?_⟩⟩
  · show reports [] = _
    rw [Roles.awaited_of_stable hstable]
    rfl
  · show ∀ r ∈ m.deferred, _
    simp [hqueue]
  · intro v hv
    have hv : m.leaving = some v := hv
    simp [hleave] at hv
  · show InLine _ _ m (m.coming ++ ([] ++ devices))
    rw [coming_of_stable hstable, hqueue]
    exact ⟨List.suffix_refl _, Or.inl rfl, Or.inr rfl⟩

/-- **A burst of requests leaves the newest devices**, as many as there are places, however the
requests fall between the confirmations. -/
theorem burst_leaves_the_newest (capacity : Nat) (timeout : Duration) (policy : Policy)
    (occasions : List (Surroundings × Message)) :
    let m := ((Machine.fresh capacity timeout policy).run occasions).machine
    1 ≤ capacity → m.stopped = false → m.isStable = true →
    ∀ (links : AddressSet) (devices : List Address),
      devices.Nodup → (∀ d ∈ devices, d ∉ m.members) →
    ∀ n b, Burst.Course { machine := m, links := links, unposted := devices } n b →
      n ≤ 4 * devices.length
        ∧ (∃ n' b', b.Course n' b' ∧ b'.mailbox = [] ∧ b'.unposted = [])
        ∧ (b.mailbox = [] → b.unposted = [] →
            b.machine.isStable = true ∧ b.machine.deferred = []
              ∧ b.machine.members = (m.members ++ devices).rtake capacity
              ∧ (devices ≠ [] → b.machine.primary = b.machine.members.getLast?)) := by
  intro m hcap hrun hstable links devices hdevices hfresh n b hcourse
  have hc : Consistent m := consistent_run capacity timeout policy occasions
  have hp : Provided capacity policy m := provided_run capacity timeout policy occasions
  have hq : Queued m := queued_run capacity timeout policy occasions
  have hline : (m.members ++ devices).Nodup :=
    List.nodup_append.mpr ⟨hc.nodup, hdevices, fun d hd e he hde => hfresh e he (hde ▸ hd)⟩
  have hstart : Burst.Flows capacity policy (m.members ++ devices) devices
      { machine := m, links := links, unposted := devices } := flows_start hc hp hq hrun hstable
  obtain ⟨h, hle⟩ := Burst.flows_course hcap hline hstart hcourse
  have hload : Burst.load { machine := m, links := links, unposted := devices }
      = 4 * devices.length := by
    obtain ⟨hout, hin, hleave⟩ := Roles.isStable_iff.mp hstable
    simp [Burst.load, Machine.burden, Roles.pendingCount, requests, hout, hin, hleave,
      hq.patient hrun hstable]
  refine ⟨by omega, ?_, fun hmail hposted => ?_⟩
  · have henv : Surroundings.Agreeable ⟨({} : Registry).facts, fun _ _ => true⟩ := fun _ _ => rfl
    exact Burst.course_ends hcap hline h henv
  · obtain ⟨hstable', hqueue, hleft⟩ := h.ended hmail hposted
    have hout := (Roles.isStable_iff.mp hstable').1
    have hmem := hleft.members_eq h.serial.provided.fits hout
    rw [h.serial.provided.capacity_eq] at hmem
    exact ⟨hstable', hqueue, hmem, fun hsome => hleft.primary.resolve_right (Ne.symm hsome)⟩

/-- Two devices are asked for at once while a third has the only place. The last of them has it
in the end. -/
theorem burst_leaves_the_newest_of_three :
    let env := ({} : ScriptedStack).surroundings ({} : Registry).facts
    let first := Address.of 0 0 0 0 0 1
    let second := Address.of 0 0 0 0 0 2
    let third := Address.of 0 0 0 0 0 3
    let m := ((Machine.fresh 1 (.ofMillis 30000) ⟨false⟩).run
      [(env, .request (.connect first)), (env, .event (.link first .connected))]).machine
    m.members = [first] ∧ ∃ b, Burst.Course { machine := m, unposted := [second, third] } 8 b
      ∧ b.machine.isStable = true ∧ b.machine.members = ([first] ++ [second, third]).rtake 1 := by
  intro env first second third m
  have henv : env.Agreeable := fun n r => by cases r <;> rfl
  have hrun : m.stopped = false := by decide +kernel
  have hstable : m.isStable = true := by decide +kernel
  have hmem : m.members = [first] := by decide +kernel
  let b₀ : Burst := { machine := m, unposted := [second, third] }
  let deliver (b : Burst) : Burst := { toTandem := b.toTandem.deliver env, unposted := b.unposted }
  let b₁ : Burst := { toTandem := b₀.post [.request (.connect second)], unposted := [third] }
  let b₂ : Burst := { toTandem := b₁.post [.request (.connect third)], unposted := [] }
  let b := deliver (deliver (deliver (deliver (deliver (deliver b₂)))))
  have hcourse : Burst.Course b₀ 8 b :=
    .more (.post rfl) <| .more (.post rfl) <| .more (.deliver henv (by decide +kernel)) <|
    .more (.deliver henv (by decide +kernel)) <| .more (.deliver henv (by decide +kernel)) <|
    .more (.deliver henv (by decide +kernel)) <| .more (.deliver henv (by decide +kernel)) <|
    .more (.deliver henv (by decide +kernel)) .none
  have hmail : b.mailbox = [] := by decide +kernel
  have hposted : b.unposted = [] := rfl
  clear_value b
  obtain ⟨-, -, hend⟩ := burst_leaves_the_newest 1 (.ofMillis 30000) ⟨false⟩ _ (by decide) hrun
    hstable ∅ [second, third] (by decide) (by decide +kernel) 8 b hcourse
  obtain ⟨hstable', -, hmem', -⟩ := hend hmail hposted
  exact ⟨hmem, b, hcourse, hstable', hmem ▸ hmem'⟩

end AudioLink
