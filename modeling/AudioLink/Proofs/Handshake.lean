import Mathlib.Data.List.Perm.Subperm
import AudioLink.Proofs.Capacity
import AudioLink.Proofs.Tandem

/-!
# One handshake at a time

Where nothing comes to the machine but what its host asks for, and what the stack confirms,
the two of them take turns. The machine asks the stack for something only when nothing that
it has asked for is unconfirmed, so at most one confirmation is ever on its way, and it is
that of `Roles.awaited`. The links below are then known from above: they are what carrying
out the awaited request makes of the members.

That is why an eviction keeps the stack within its places even for a moment. The link that
needs a place is not asked for before the other is confirmed to be down.
-/

namespace AudioLink

variable {env : Surroundings} {m m' : Machine} {d : Address} {es : List Effect} {r : Request}

/-- The request that the stack has accepted and not confirmed yet, by the machine's roles. -/
def Roles.awaited (r : Roles) : Option Request :=
  match r.outgoing with
  | some ⟨d, .requested⟩ => some (.connect d)
  | _ => r.leaving.map .disconnect

namespace Roles

variable {r : Roles}

theorem awaited_of_requested (hout : r.outgoing = some ⟨d, .requested⟩) :
    r.awaited = some (.connect d) := by
  rw [awaited, hout]

/-- Without a link that was asked for, only a member on its way out is awaited. -/
theorem awaited_of_leaving (hout : ∀ d, r.outgoing ≠ some ⟨d, .requested⟩) :
    r.awaited = r.leaving.map .disconnect := by
  unfold awaited
  split
  · next d h => exact absurd h (hout d)
  · rfl

theorem awaited_of_stable (hstable : r.isStable = true) : r.awaited = none := by
  obtain ⟨hout, -, hleave⟩ := isStable_iff.mp hstable
  rw [awaited_of_leaving (by simp [hout]), hleave]
  rfl

/-- The machine waits for a link to come up, or for a member to go. -/
theorem awaited_cases {q : Request} (h : r.awaited = some q) :
    (∃ d, q = .connect d ∧ r.outgoing = some ⟨d, .requested⟩)
      ∨ ∃ v, q = .disconnect v ∧ r.leaving = some v := by
  unfold awaited at h
  split at h
  · next d hout => exact Or.inl ⟨d, (Option.some.inj h).symm, hout⟩
  · obtain ⟨v, hleave, rfl⟩ := Option.map_eq_some_iff.mp h
    exact Or.inr ⟨v, rfl, hleave⟩

end Roles

/-! ## What is accepted is awaited -/

theorem awaited_beginParting (hout : m.outgoing = none) :
    (m.beginParting d).awaited = some (.disconnect d) :=
  Roles.awaited_of_leaving (by simp [Machine.beginParting, hout])

/-- **A request adds to what is awaited exactly what the stack accepts.** -/
theorem awaited_request (ho : Outcome env m (.request r) es m') :
    m'.awaited.toList = m.awaited.toList ++ es.filterMap Effect.accepted? := by
  cases ho with
  | linkRequested hstable =>
      rw [Roles.awaited_of_stable hstable]
      rfl
  | evictionBegun hstable =>
      rw [Roles.awaited_of_stable hstable, List.filterMap_append, Machine.accepted_hush]
      rfl
  | partingBegun hstable =>
      have hout := (Roles.isStable_iff.mp hstable).1
      rw [Roles.awaited_of_stable hstable, awaited_beginParting hout, List.filterMap_append,
        Machine.accepted_hush]
      rfl
  -- the eviction goes on, although nobody needs the place any more
  | withdrawn hout =>
      have hsame : m.awaited = m.leaving.map .disconnect :=
        Roles.awaited_of_leaving (by simp [hout])
      rw [hsame]
      exact (List.append_nil _).symm
  | _ => exact (List.append_nil _).symm

theorem awaited_replay {rs : List Request} (hr : Replay env m rs es m') :
    m'.awaited.toList = m.awaited.toList ++ es.filterMap Effect.accepted? := by
  induction hr with
  | idle | busy => exact (List.append_nil _).symm
  | @next m m₁ m₂ r rest _ _ _ _ _ _ ho _ ih =>
      have hstep : m₁.awaited.toList = m.awaited.toList ++ _ :=
        awaited_request (m := { m with deferred := rest }) ho
      rw [ih, hstep, List.filterMap_append, List.append_assoc]

/-- A member that is on its way out is gone when its link is down. -/
theorem parted_of_leaving {v : Address} (hc : Consistent m) (hleave : m.leaving = some v)
    (ho : Outcome env m (.event (.link v .disconnected)) es m') : Parted env m v es m' := by
  have hv := hc.leaving_member hleave
  have hfree := hc.not_inFlight hv
  cases ho with
  | parted _ hp => exact hp
  | dropped _ hne => exact absurd hleave hne
  | linkFailed hout => exact absurd hout hfree.1
  | incomingFailed hin => exact absurd hin hfree.2
  | nothing h =>
      cases h with
      | strangerDown hd => exact absurd hv hd

theorem awaited_parted {v : Address} (hp : Parted env m v es m') :
    m'.awaited.toList = es.filterMap Effect.accepted? := by
  cases hp with
  | vacated hout =>
      rw [Roles.awaited_of_leaving (by simp [Machine.expel, Machine.endParting, hout]),
        Machine.accepted_farewell]
      rfl
  | requested | refused =>
      rw [List.filterMap_append, Machine.accepted_farewell]
      rfl

theorem mem_parted {v : Address} (hp : Parted env m v es m') :
    d ∈ m'.members ↔ d ∈ m.members ∧ d ≠ v := by
  cases hp <;> exact Machine.mem_expel

/-- A confirmation of what is awaited brings a link up, or takes a member out. -/
theorem confirmed_cases (hc : Consistent m) (hf : Fits m) (hwait : m.awaited = some r)
    (ho : Outcome env m (.event r.confirmation) es m') :
    (∃ d, r = .connect d ∧ m.outgoing = some ⟨d, .requested⟩
        ∧ es = [.notice (.link d .connecting .connected)] ∧ m' = m.completeOutgoing d)
      ∨ ∃ v, r = .disconnect v ∧ m.leaving = some v ∧ Parted env m v es m' := by
  rcases Roles.awaited_cases hwait with ⟨d, rfl, hout⟩ | ⟨v, rfl, hleave⟩
  · exact Or.inl ⟨d, rfl, hout, linked_of_requested hf hc hout ho⟩
  · exact Or.inr ⟨v, rfl, hleave, parted_of_leaving hc hleave ho⟩

theorem awaited_completeOutgoing (hc : Consistent m) (hout : m.outgoing = some ⟨d, .requested⟩) :
    (m.completeOutgoing d).awaited = none := by
  rw [Roles.awaited_of_leaving (by simp [Machine.completeOutgoing, Machine.enlist])]
  show m.leaving.map Request.disconnect = none
  rw [hc.requested hout]
  rfl

/-- **The confirmation of what is awaited makes the members what it says**, and awaited is
whatever the stack accepts next. -/
theorem awaited_confirmed (hc : Consistent m) (hf : Fits m) (hwait : m.awaited = some r)
    (ho : Outcome env m (.event r.confirmation) es m') :
    m'.awaited.toList = es.filterMap Effect.accepted? ∧ m'.incoming = m.incoming
      ∧ ∀ d, d ∈ m'.members ↔ if r.device = d then r.wanted = true else d ∈ m.members := by
  rcases confirmed_cases hc hf hwait ho with ⟨e, rfl, hout, rfl, rfl⟩ | ⟨v, rfl, -, hp⟩
  · refine ⟨by rw [awaited_completeOutgoing hc hout]; rfl, rfl, fun d => ?_⟩
    show d ∈ (m.enlist e).members ↔ if e = d then true = true else d ∈ m.members
    rw [Machine.mem_enlist]
    by_cases hd : e = d
    · simp [hd]
    · simp [hd, Ne.symm hd]
  · refine ⟨awaited_parted hp, by cases hp <;> rfl, fun d => ?_⟩
    show _ ↔ if v = d then false = true else d ∈ m.members
    rw [mem_parted hp]
    by_cases hd : v = d
    · simp [hd]
    · simp [hd, Ne.symm hd]

/-! ## Whole turns -/

/-- A turn about a request adds to what is awaited what the stack accepts meanwhile. -/
theorem awaited_handle_request (env : Surroundings) (r : Request) (hc : Consistent m)
    (hrun : m.stopped = false) :
    let t := m.handle env (.request r)
    t.machine.awaited.toList = m.awaited.toList ++ t.effects.filterMap Effect.accepted?
      ∧ t.machine.incoming = m.incoming ∧ t.machine.members = m.members := by
  obtain ⟨es, m₁, rs, es', m₂, heq, ho, hr⟩ := handle_cases env (.request r) hc hrun
  rw [heq]
  refine ⟨?_, (incoming_replay hr).trans (incoming_request ho),
    (members_replay hr).1.trans (members_request ho).1⟩
  show m₂.awaited.toList = _ ++ (es ++ es').filterMap Effect.accepted?
  rw [awaited_replay hr, awaited_request ho, List.filterMap_append, List.append_assoc]

/-- After a turn about the confirmation of what was awaited, awaited is what the stack has
accepted meanwhile. -/
theorem awaited_handle_confirmed (env : Surroundings) (hc : Consistent m) (hf : Fits m)
    (hrun : m.stopped = false) (hwait : m.awaited = some r) :
    let t := m.handle env (.event r.confirmation)
    t.machine.awaited.toList = t.effects.filterMap Effect.accepted?
      ∧ t.machine.incoming = m.incoming
      ∧ ∀ d, d ∈ t.machine.members ↔ if r.device = d then r.wanted = true else d ∈ m.members := by
  obtain ⟨es, m₁, rs, es', m₂, heq, ho, hr⟩ := handle_cases env (.event r.confirmation) hc hrun
  obtain ⟨hacc, hin, hmem⟩ := awaited_confirmed hc hf hwait ho
  rw [heq]
  refine ⟨?_, (incoming_replay hr).trans hin, fun d => ?_⟩
  · show m₂.awaited.toList = (es ++ es').filterMap Effect.accepted?
    rw [awaited_replay hr, hacc, List.filterMap_append]
  · show d ∈ m₂.members ↔ _
    rw [(members_replay hr).1]
    exact hmem d

/-! ## One confirmation on its way -/

/-- The request of the host, if the message is one. -/
def Message.request? : Message → Option Request
  | request r => some r
  | event _ | timeout .. | shutdown => none

/-- What the host has asked for. -/
def requests (mail : List Message) : List Request :=
  mail.filterMap Message.request?

/-- The messages that do not come from the host. -/
def reports (mail : List Message) : List Message :=
  mail.filter (·.request?.isNone)

theorem requests_append (mail mail' : List Message) :
    requests (mail ++ mail') = requests mail ++ requests mail' :=
  List.filterMap_append ..

theorem reports_append (mail mail' : List Message) :
    reports (mail ++ mail') = reports mail ++ reports mail' :=
  List.filter_append ..

theorem requests_confirmations (rs : List Request) :
    requests (rs.map (.event ·.confirmation)) = [] := by
  refine List.filterMap_eq_nil_iff.mpr fun msg hmsg => ?_
  obtain ⟨r, -, rfl⟩ := List.mem_map.mp hmsg
  rfl

theorem reports_confirmations (rs : List Request) :
    reports (rs.map (.event ·.confirmation)) = rs.map (.event ·.confirmation) := by
  refine List.filter_eq_self.mpr fun msg hmsg => ?_
  obtain ⟨r, -, rfl⟩ := List.mem_map.mp hmsg
  rfl

namespace Tandem

variable {p q : Tandem} {capacity : Nat} {timeout : Duration} {policy : Policy}
  {rs : List Request} {msg : Message} {rest : List Message}

/-- Everything but requests of the host that is on its way is the confirmation of what the
machine waits for. -/
structure Serial (capacity : Nat) (policy : Policy) (p : Tandem) : Prop where
  consistent : Consistent p.machine
  provided : Provided capacity policy p.machine
  running : p.machine.stopped = false
  /-- No link comes of its own accord. -/
  incoming : p.machine.incoming = none
  confirms : reports p.mailbox = p.machine.awaited.toList.map (.event ·.confirmation)

theorem reports_handle (env : Surroundings) (msg : Message) (p : Tandem) :
    reports (p.handle env msg).mailbox = reports p.mailbox
      ++ ((p.machine.handle env msg).effects.filterMap Effect.accepted?).map
        (.event ·.confirmation) := by
  rw [handle, mailbox_foldl, reports_append, reports_confirmations]

theorem requests_handle (env : Surroundings) (msg : Message) (p : Tandem) :
    requests (p.handle env msg).mailbox = requests p.mailbox := by
  rw [handle, mailbox_foldl, requests_append, requests_confirmations, List.append_nil]

theorem serial_handle (hc : Consistent p.machine) (hp : Provided capacity policy p.machine)
    (hrun : p.machine.stopped = false) (hmsg : msg ≠ .shutdown)
    (hin : (p.machine.handle env msg).machine.incoming = none)
    (hwait : reports (p.handle env msg).mailbox
      = (p.machine.handle env msg).machine.awaited.toList.map (.event ·.confirmation)) :
    Serial capacity policy (p.handle env msg) := by
  refine ⟨?_, ?_, ?_, ?_, ?_⟩ <;> rw [machine_handle]
  · exact consistent_handle msg hc
  · exact provided_handle env msg hc hp
  · exact running_handle hc hrun hmsg
  · exact hin
  · exact hwait

theorem serial_request (env : Surroundings) (r : Request) (h : Serial capacity policy p) :
    Serial capacity policy (p.handle env (.request r)) := by
  obtain ⟨hwait, hin, -⟩ := awaited_handle_request env r h.consistent h.running
  refine serial_handle h.consistent h.provided h.running (by simp) (hin.trans h.incoming) ?_
  rw [reports_handle, h.confirms, hwait, List.map_append]

theorem serial_confirmed (env : Surroundings) (h : Serial capacity policy p)
    (hwait : p.machine.awaited = some r) (hrest : reports rest = []) :
    Serial capacity policy ({ p with mailbox := rest }.handle env (.event r.confirmation)) := by
  obtain ⟨hwait', hin, -⟩ := awaited_handle_confirmed env h.consistent h.provided.fits h.running
    hwait
  refine serial_handle h.consistent h.provided h.running (by simp) (hin.trans h.incoming) ?_
  rw [reports_handle, hwait']
  exact congrArg (· ++ _) hrest

theorem serial_post (r : Request) (h : Serial capacity policy p) :
    Serial capacity policy (p.post [.request r]) := by
  refine { h with confirms := ?_ }
  rw [post, reports_append, h.confirms]
  exact List.append_nil _

/-- What waited longest in the mailbox is a request of the host, or the only confirmation. -/
theorem Serial.front (h : Serial capacity policy p) (hmail : p.mailbox = msg :: rest) :
    (∃ r, msg = .request r ∧ Serial capacity policy { p with mailbox := rest })
      ∨ ∃ r, p.machine.awaited = some r ∧ msg = .event r.confirmation ∧ reports rest = [] := by
  have hconfirms := h.confirms
  rw [hmail] at hconfirms
  cases msg with
  | request r => exact Or.inl ⟨r, rfl, { h with confirms := hconfirms }⟩
  | event | timeout | shutdown =>
      have hconfirms : _ :: reports rest = _ := hconfirms
      cases hwait : p.machine.awaited with
      | none => simp [hwait] at hconfirms
      | some r =>
          rw [hwait] at hconfirms
          obtain ⟨hmsg, hrest⟩ := List.cons.inj hconfirms
          exact Or.inr ⟨r, rfl, hmsg, hrest⟩

theorem serial_deliver (env : Surroundings) (h : Serial capacity policy p) :
    Serial capacity policy (p.deliver env) := by
  unfold deliver
  split
  · exact h
  · next msg rest hmail =>
    rcases h.front hmail with ⟨r, rfl, hrest⟩ | ⟨r, hwait, rfl, hrest⟩
    · exact serial_request env r hrest
    · exact serial_confirmed env h hwait hrest

/-! ## The links are known from above -/

/-- Whether the link to a device is up once requests have been carried out, given whether it
was up before. -/
def linkedAfter (d : Address) (rs : List Request) (linked : Prop) : Prop :=
  rs.foldl (fun linked r => if r.device = d then r.wanted = true else linked) linked

theorem linkedAfter_append (rs rs' : List Request) (linked : Prop) :
    linkedAfter d (rs ++ rs') linked = linkedAfter d rs' (linkedAfter d rs linked) :=
  List.foldl_append ..

theorem mem_links_foldl : d ∈ (rs.foldl carryOut p).links ↔ linkedAfter d rs (d ∈ p.links) := by
  induction rs generalizing p with
  | nil => exact Iff.rfl
  | cons r rest ih =>
      have hstep : (d ∈ (p.carryOut r).links) = _ := propext mem_links_carryOut
      rw [List.foldl_cons, ih, hstep]
      rfl

/-- The links are those to the members, but for what the machine waits for. -/
def Mirrors (p : Tandem) : Prop :=
  ∀ d, d ∈ p.links ↔ linkedAfter d p.machine.awaited.toList (d ∈ p.machine.members)

theorem mem_links_handle (env : Surroundings) (msg : Message) (p : Tandem) :
    d ∈ (p.handle env msg).links
      ↔ linkedAfter d ((p.machine.handle env msg).effects.filterMap Effect.accepted?)
        (d ∈ p.links) :=
  mem_links_foldl

theorem mirrors_request (env : Surroundings) (r : Request) (h : Serial capacity policy p)
    (hm : Mirrors p) : Mirrors (p.handle env (.request r)) := by
  obtain ⟨hwait, -, hmem⟩ := awaited_handle_request env r h.consistent h.running
  intro d
  rw [mem_links_handle, machine_handle, hwait, hmem, linkedAfter_append, propext (hm d)]

theorem mirrors_confirmed (env : Surroundings) (h : Serial capacity policy p) (hm : Mirrors p)
    (hwait : p.machine.awaited = some r) :
    Mirrors ({ p with mailbox := rest }.handle env (.event r.confirmation)) := by
  obtain ⟨hwait', -, hmem⟩ := awaited_handle_confirmed env h.consistent h.provided.fits h.running
    hwait
  intro d
  -- the members are now what the links were
  have hlinks := hm d
  rw [hwait] at hlinks
  rw [mem_links_handle, machine_handle, hwait', propext (hmem d)]
  exact iff_of_eq (congrArg (linkedAfter d _) (propext hlinks))

theorem mirrors_deliver (env : Surroundings) (h : Serial capacity policy p) (hm : Mirrors p) :
    Mirrors (p.deliver env) := by
  unfold deliver
  split
  · exact hm
  · next msg rest hmail =>
    rcases h.front hmail with ⟨r, rfl, hrest⟩ | ⟨r, hwait, rfl, -⟩
    · exact mirrors_request env r hrest hm
    · exact mirrors_confirmed env h hm hwait

/-! ## How many links there are -/

theorem size_le_length {links : AddressSet} {l : List Address} (h : ∀ d, d ∈ links → d ∈ l) :
    links.size ≤ l.length := by
  have hnodup : links.toList.Nodup := by
    refine Std.ExtTreeSet.distinct_toList.imp fun hne heq => hne ?_
    rw [heq]
    exact Std.ReflCmp.compare_self
  have hsub : links.toList ⊆ l := fun d hd => h d (Std.ExtTreeSet.mem_toList.mp hd)
  calc links.size = links.toList.length := Std.ExtTreeSet.length_toList.symm
    _ ≤ l.length := (List.subperm_of_subset hnodup hsub).length_le

/-- The links fit the capacity, and one confirmation at most is on its way. -/
def Within (capacity : Nat) (p : Tandem) : Prop :=
  p.links.size ≤ capacity ∧ (reports p.mailbox).length ≤ 1

/-- A link is up to a member, or was asked for. -/
theorem Mirrors.mem (hm : Mirrors p) (hd : d ∈ p.links) :
    d ∈ p.machine.members ∨ p.machine.outgoing = some ⟨d, .requested⟩ := by
  have hd := (hm d).mp hd
  cases hwait : p.machine.awaited with
  | none =>
      rw [hwait] at hd
      exact Or.inl hd
  | some r =>
      rw [hwait] at hd
      have hd : if r.device = d then r.wanted = true else d ∈ p.machine.members := hd
      split at hd
      · next hrd =>
        rcases Roles.awaited_cases hwait with ⟨e, rfl, hout⟩ | ⟨v, rfl, -⟩
        · obtain rfl : e = d := hrd
          exact Or.inr hout
        · simp [Request.wanted] at hd
      · exact Or.inl hd

/-- The link that was asked for has a place beside the members. -/
theorem size_links_le (hf : Fits p.machine) (hm : Mirrors p) :
    p.links.size ≤ p.machine.capacity := by
  by_cases hout : ∃ e, p.machine.outgoing = some ⟨e, .requested⟩
  · obtain ⟨e, hout⟩ := hout
    have hsize : p.links.size ≤ (e :: p.machine.members).length := by
      refine size_le_length fun d hd => ?_
      rcases hm.mem hd with hd | hd
      · exact List.mem_cons_of_mem _ hd
      · obtain rfl : e = d := by simpa [hout] using hd
        exact List.mem_cons_self
    have hroom := hf.room_of_requested hout
    rw [List.length_cons] at hsize
    omega
  · have hsize : p.links.size ≤ p.machine.members.length :=
      size_le_length fun d hd => (hm.mem hd).resolve_right fun h => hout ⟨d, h⟩
    exact Nat.le_trans hsize hf.members

theorem within_of_serial (h : Serial capacity policy p) (hm : Mirrors p) : Within capacity p := by
  refine ⟨h.provided.capacity_eq ▸ size_links_le h.provided.fits hm, ?_⟩
  rw [h.confirms, List.length_map]
  exact Option.length_toList_le

/-! ## Every moment of a run -/

/-- What can come of a new machine above a stack without links where only the host asks for
something, past the mailbox or through it. The stack may refuse whatever it likes. -/
inductive Hosted (capacity : Nat) (timeout : Duration) (policy : Policy) : Tandem → Prop where
  | start : Hosted capacity timeout policy { machine := .fresh capacity timeout policy }
  | work {p : Tandem} (env : Surroundings) (r : Request) (h : Hosted capacity timeout policy p) :
      Hosted capacity timeout policy (p.handle env (.request r))
  | post {p : Tandem} (r : Request) (h : Hosted capacity timeout policy p) :
      Hosted capacity timeout policy (p.post [.request r])
  | deliver {p : Tandem} (env : Surroundings) (h : Hosted capacity timeout policy p) :
      Hosted capacity timeout policy (p.deliver env)

/-- How the stack stands between two steps, or in the middle of the next one: the machine has
done some of what it does about a message, and what the stack has accepted is carried out. -/
inductive Moment (p : Tandem) : Tandem → Prop where
  | still : Moment p p
  | working {env : Surroundings} {r : Request} {es : List Effect}
      (h : es <+: (p.machine.handle env (.request r)).effects) :
      Moment p ((es.filterMap Effect.accepted?).foldl carryOut p)
  | delivering {env : Surroundings} {msg : Message} {rest : List Message} {es : List Effect}
      (hmail : p.mailbox = msg :: rest) (h : es <+: (p.machine.handle env msg).effects) :
      Moment p ((es.filterMap Effect.accepted?).foldl carryOut { p with mailbox := rest })

theorem hosted_keeps (h : Hosted capacity timeout policy p) :
    Serial capacity policy p ∧ Mirrors p := by
  induction h with
  | start =>
      refine ⟨⟨consistent_fresh capacity timeout policy, provided_fresh capacity timeout policy,
        rfl, rfl, rfl⟩, fun d => ?_⟩
      exact iff_of_false Std.ExtTreeSet.not_mem_empty List.not_mem_nil
  | work env r _ ih => exact ⟨serial_request env r ih.1, mirrors_request env r ih.1 ih.2⟩
  | post r _ ih => exact ⟨serial_post r ih.1, ih.2⟩
  | deliver env _ ih => exact ⟨serial_deliver env ih.1, mirrors_deliver env ih.1 ih.2⟩

theorem foldl_carryOut_machine (m : Machine) :
    rs.foldl carryOut { p with machine := m } = { rs.foldl carryOut p with machine := m } := by
  induction rs generalizing p with
  | nil => rfl
  | cons r rest ih => exact ih (p := p.carryOut r)

/-- The stack accepts once in a turn at most, so a moment is as before it or as after it. -/
theorem within_during (hbefore : Within capacity p) (hafter : Within capacity (p.handle env msg))
    (h : es <+: (p.machine.handle env msg).effects) :
    Within capacity ((es.filterMap Effect.accepted?).foldl carryOut p) := by
  have hfront := h.filterMap Effect.accepted?
  have hlen := hafter.2
  rw [reports_handle, List.length_append, List.length_map] at hlen
  rcases Nat.eq_zero_or_pos (es.filterMap Effect.accepted?).length with hnone | hsome
  · rw [List.length_eq_zero_iff.mp hnone]
    exact hbefore
  · rw [hfront.eq_of_length_le (by omega)]
    unfold handle at hafter
    rw [foldl_carryOut_machine] at hafter
    exact hafter

end Tandem

/-- **The stack never has more links than there are places**, not even while the machine is
at work, and never more than one confirmation on its way. -/
theorem stack_stays_within_capacity {capacity : Nat} {timeout : Duration} {policy : Policy}
    {p q : Tandem} (h : Tandem.Hosted capacity timeout policy p) (hq : p.Moment q) :
    q.links.size ≤ capacity ∧ (reports q.mailbox).length ≤ 1 := by
  obtain ⟨hs, hm⟩ := Tandem.hosted_keeps h
  have hbefore := Tandem.within_of_serial hs hm
  cases hq with
  | still => exact hbefore
  | @working env r es hes =>
      have hafter := Tandem.within_of_serial (Tandem.serial_request env r hs)
        (Tandem.mirrors_request env r hs hm)
      exact Tandem.within_during hbefore hafter hes
  | @delivering env msg rest es hmail hes =>
      have hdeliver : p.deliver env = { p with mailbox := rest }.handle env msg := by
        rw [Tandem.deliver, hmail]
      have hafter := Tandem.within_of_serial (Tandem.serial_deliver env hs)
        (Tandem.mirrors_deliver env hs hm)
      rw [hdeliver] at hafter
      have hrest : (reports rest).length ≤ (reports p.mailbox).length := by
        rw [hmail]
        exact ((List.sublist_cons_self msg rest).filter _).length_le
      have hbefore : Tandem.Within capacity { p with mailbox := rest } :=
        ⟨hbefore.1, Nat.le_trans hrest hbefore.2⟩
      exact Tandem.within_during hbefore hafter hes

/-- One device makes way for another at the only place. At the moment at which the link to
the second comes up, that to the first is down. -/
theorem stack_stays_within_capacity_in_eviction :
    let env := ({} : ScriptedStack).surroundings ({} : Registry).facts
    let first := Address.of 0 0 0 0 0 1
    let second := Address.of 0 0 0 0 0 2
    let p : Tandem := { machine := .fresh 1 (.ofMillis 30000) ⟨false⟩ }
    let p := ((p.handle env (.request (.connect first))).deliver env).handle env
      (.request (.connect second))
    let t := p.machine.handle env (.event (.link first .disconnected))
    let q := (t.effects.filterMap Effect.accepted?).foldl Tandem.carryOut { p with mailbox := [] }
    second ∈ q.links ∧ first ∉ q.links ∧ q.links.size ≤ 1 ∧ (reports q.mailbox).length ≤ 1 := by
  intro env first second p₀ p t q
  have h : Tandem.Hosted 1 (.ofMillis 30000) ⟨false⟩ p :=
    .work env _ (.deliver env (.work env _ .start))
  have hmail : p.mailbox = [.event (.link first .disconnected)] := by decide +kernel
  have hup : second ∈ q.links := by decide +kernel
  have hdown : first ∉ q.links := by decide +kernel
  have hq : p.Moment q := .delivering hmail List.prefix_rfl
  clear_value q
  exact ⟨hup, hdown, stack_stays_within_capacity h hq⟩

end AudioLink
