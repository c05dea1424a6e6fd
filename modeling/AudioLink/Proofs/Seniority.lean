import Mathlib.Data.List.Dedup
import AudioLink.Proofs.Calls

/-!
# Seniority

The members stand in the order in which they were last admitted. Nothing ever sorts them:
whoever is admitted joins at the end, whoever goes leaves a gap that closes, and requests of
the host touch neither the members nor the primary one.

Two choices read this order. Who has to make room is the first of the list, so the member
admitted longest ago. Who is primary after the primary member has gone is the last of the
list, where a member on its way out is passed over as long as another is left; listeners are
told of the new one unless it is on its way out itself.

`Machine.Regroups` says what one turn does to the list and to the primary member, along all
the ways on which a member can go. `Machine.admissions` keeps who was admitted in a run, and
the order of the members is compared to it.
-/

namespace AudioLink

variable {env : Surroundings} {m m' n : Machine} {d p v : Address} {es es' : List Effect}
variable {msg : Message}

/-! ## Who becomes primary -/

/-- Who is newest among those that stay only depends on which of the members stay. -/
theorem Roles.newestSettled_congr {r s : Roles} (hmembers : r.members = s.members)
    (hleave : ∀ e ∈ r.members, r.leaving = some e ↔ s.leaving = some e) :
    r.newestSettled = s.newestSettled := by
  unfold Roles.newestSettled
  rw [← hmembers]
  refine congrArg List.getLast? (List.filter_congr fun e he => ?_)
  rw [decide_eq_decide, ne_eq, ne_eq, hleave e he]

/-- The one who becomes primary was found among those that stay unless it goes itself. -/
theorem Roles.newestSettled_of_heir {r : Roles} (hheir : r.heir = some p) :
    r.newestSettled = some p ↔ r.leaving ≠ some p := by
  constructor
  · intro h
    exact (mem_of_newestSettled h).2
  · intro hleave
    rcases Option.or_eq_some_iff.mp hheir with h | ⟨hnone, hlast⟩
    · exact h
    · -- a member that stays would have been found
      have hp : p ∈ r.members := List.mem_of_getLast? hlast
      have hempty := List.getLast?_eq_none_iff.mp hnone
      exact absurd hleave (by simpa using List.filter_eq_nil_iff.mp hempty p hp)

/-- A device that is stopped changes no link. -/
theorem link_not_mem_hush {old new : LinkState} : .notice (.link p old new) ∉ n.hush d := by
  unfold Machine.hush
  split <;> simp

/-- What is told when a member goes: who becomes primary, if that was its role. -/
theorem elected_mem_farewell {old : LinkState} :
    .notice (.link p .disconnected .connected) ∈ n.farewell d old
      ↔ n.primary = some d ∧ (n.without d).newestSettled = some p := by
  rw [Machine.farewell, List.mem_append, List.mem_cons, or_iff_right link_not_mem_hush,
    or_iff_right (by simp)]
  unfold Machine.succession
  split
  · next hprimary => simp [hprimary]
  · next hprimary => simp [hprimary]

/-! ## What a turn does to the members -/

/-- The primary member has gone in a turn of the machine, and its role is given anew. -/
structure Machine.Elects (m : Machine) (t : Turn) : Prop where
  /-- It is the newest of those that are left, but for the member that was on its way out
  before, which only follows where nobody else is left. -/
  newest : t.machine.primary
    = (t.machine.members.filter fun e => m.leaving ≠ some e).getLast?.or t.machine.members.getLast?
  /-- Listeners are told of it unless it was on its way out. -/
  told : ∀ p, t.machine.primary = some p →
    (.notice (.link p .disconnected .connected) ∈ t.effects ↔ m.leaving ≠ some p)

/-- What a turn of the machine does to its members and the primary one. -/
inductive Machine.Regroups (m : Machine) (t : Turn) : Prop where
  | unchanged (hmembers : t.machine.members = m.members) (hprimary : t.machine.primary = m.primary)
  | joined (d : Address) (hd : d ∉ m.members) (hmembers : t.machine.members = m.members ++ [d])
      (hprimary : t.machine.primary = some d)
  | parted (d : Address) (hd : d ∈ m.members) (hmembers : t.machine.members = m.members.erase d)
      (hkept : m.primary ≠ some d → t.machine.primary = m.primary)
      (helected : m.primary = some d → m.Elects t)

/-- Only the members, the primary one, and what is told of a new primary one, matter. -/
theorem regroups_congr (h : m.Regroups ⟨m', es⟩) (hmembers : n.members = m'.members)
    (hprimary : n.primary = m'.primary)
    (htold : ∀ p, .notice (.link p .disconnected .connected) ∈ es'
      ↔ .notice (.link p .disconnected .connected) ∈ es) :
    m.Regroups ⟨n, es'⟩ := by
  cases h with
  | unchanged hmem hprim => exact .unchanged (hmembers.trans hmem) (hprimary.trans hprim)
  | joined d hd hmem hprim => exact .joined d hd (hmembers.trans hmem) (hprimary.trans hprim)
  | parted d hd hmem hkept helected =>
      refine .parted d hd (hmembers.trans hmem) (fun h => hprimary.trans (hkept h)) fun h => ?_
      obtain ⟨hnewest, hnotice⟩ := helected h
      refine ⟨?_, fun p hp => ?_⟩
      · show n.primary = _
        rw [hprimary, hmembers]
        exact hnewest
      · exact (htold p).trans (hnotice p (hprimary.symm.trans hp))

/-- A member goes. The machine at that moment, `n`, may have given up other roles already. -/
theorem regroups_expel (n : Machine) (old : LinkState) (hc : Consistent m) (hd : d ∈ m.members)
    (hmembers : n.members = m.members) (hprimary : n.primary = m.primary)
    (hleave : ∀ e, e ≠ d → (n.leaving = some e ↔ m.leaving = some e)) :
    m.Regroups ⟨n.expel d, n.farewell d old⟩ := by
  have hleft : (n.expel d).members = m.members.filter (· ≠ d) := by rw [Machine.expel, hmembers]
  refine .parted d hd ?_ ?_ ?_
  · rw [hc.nodup.erase_eq_filter]
    exact hleft.trans (List.filter_congr fun e _ => by simp [bne, beq_eq_decide])
  · intro hother
    show (n.expel d).primary = m.primary
    rw [Machine.expel, hprimary, if_neg hother]
  · intro hgone
    -- the choice as it is stated: among the members left now, by who was on its way out before
    let left : Roles := { members := (n.expel d).members, leaving := m.leaving }
    have hsame : (n.without d).newestSettled = left.newestSettled := by
      refine Roles.newestSettled_congr rfl fun e he => ?_
      have hne : e ≠ d := by simpa using (List.mem_filter.mp he).2
      exact hleave e hne
    have hheir : (n.expel d).primary = left.heir := by
      rw [Machine.expel, if_pos (hprimary.trans hgone)]
      exact congrArg (Option.or · _) hsame
    refine ⟨hheir, fun p hp => ?_⟩
    have hnewest := Roles.newestSettled_of_heir (hheir.symm.trans hp)
    rw [elected_mem_farewell, hsame, hnewest]
    exact and_iff_right (hprimary.trans hgone)

/-- Once a member is on its way out no more, nobody is; and before, nobody else was. -/
theorem leaving_endParting (hleave : m.leaving = some d) (hne : p ≠ d) :
    (n.endParting d).leaving = some p ↔ m.leaving = some p := by
  rw [hleave]
  exact iff_of_false (by simp [Machine.endParting]) fun h => hne (Option.some.inj h).symm

/-- The member on its way out is gone, and what waited for its place is asked for or not. -/
theorem regroups_parted (hc : Consistent m) (hleave : m.leaving = some d)
    (hp : Parted env m d es m') : m.Regroups ⟨m', es⟩ := by
  have hgone : m.Regroups
      ⟨(m.endParting d).expel d, (m.endParting d).farewell d .disconnecting⟩ :=
    regroups_expel (m.endParting d) .disconnecting hc (hc.leaving_member hleave) rfl rfl
      fun e hne => leaving_endParting hleave hne
  cases hp with
  | vacated => exact hgone
  | requested | refused =>
      refine regroups_congr hgone rfl rfl fun p => ?_
      rw [List.mem_append, or_iff_left (by simp)]

/-- **A handler regroups the members in one of three ways**, whatever the message. -/
theorem regroups_outcome (hc : Consistent m) (ho : Outcome env m msg es m') :
    m.Regroups ⟨m', es⟩ := by
  cases ho with
  | parted hleave hp | partingExpired _ hleave hp => exact regroups_parted hc hleave hp
  | dropped hd => exact regroups_expel m .connected hc hd rfl rfl fun _ _ => Iff.rfl
  | @evictionExpired d v _ _ hout =>
      have hleave : m.leaving = some v := hc.awaiting hout
      have hgone := regroups_expel ((m.abandon d).endParting v) .disconnecting hc
        (hc.leaving_member hleave) rfl rfl fun e hne => leaving_endParting hleave hne
      refine regroups_congr hgone rfl rfl fun p => ?_
      rw [List.mem_cons, or_iff_right (by simp)]
  | @linked d hout => exact .joined d (hc.outgoing_fresh hout).1 rfl rfl
  | @incomingLinked d hin => exact .joined d (hc.incoming_fresh hin) rfl rfl
  | @admitted d hd => exact .joined d hd rfl rfl
  | stopped hout hin => cases hout <;> cases hin <;> exact .unchanged rfl rfl
  | _ => exact .unchanged rfl rfl

/-- The requests that waited tell of nobody becoming primary. -/
theorem not_elected_replay {rs : List Request} (hr : Replay env m rs es m') :
    .notice (.link p .disconnected .connected) ∉ es := by
  induction hr with
  | idle | busy => exact List.not_mem_nil
  | @next m _ _ _ rest _ es _ _ _ _ ho _ ih =>
      have hfirst : .notice (.link p .disconnected .connected) ∉ es := by
        generalize { m with deferred := rest } = n at ho
        cases ho <;> simp [link_not_mem_hush]
      rw [List.mem_append, not_or]
      exact ⟨hfirst, ih⟩

/-- **A turn regroups the members in one of three ways.** -/
theorem regroups_handle (env : Surroundings) (msg : Message) (hc : Consistent m) :
    m.Regroups (m.handle env msg) := by
  cases hrun : m.stopped with
  | true =>
      rw [handle_stopped msg hrun]
      exact .unchanged rfl rfl
  | false =>
      obtain ⟨es, m₁, rs, es', m₂, heq, ho, hr⟩ := handle_cases env msg hc hrun
      obtain ⟨hmembers, hprimary⟩ := members_replay hr
      rw [heq]
      refine regroups_congr (regroups_outcome hc ho) hmembers hprimary fun p => ?_
      rw [List.mem_append, or_iff_left (not_elected_replay hr)]

/-! ## Who has to make room -/

/-- The member that has to make room is the one admitted longest ago. -/
def Machine.EvictsOldest (m : Machine) : Prop :=
  ∀ d v, m.outgoing = some ⟨d, .awaitingEviction v⟩ → m.members.head? = some v

/-- The victim is chosen by a handler that finds it to be the oldest. -/
theorem oldest_chosen (ho : Outcome env m msg es m') (hold : m.outgoing ≠ m'.outgoing)
    (hnew : m'.outgoing = some ⟨d, .awaitingEviction v⟩) : m.members.head? = some v := by
  cases ho with
  | evictionBegun _ _ _ hv =>
      cases hnew
      exact hv
  | linkRequested | withdrawn | linkFailed | linked | linkedEarly | stayedAgainst
  | linkExpired | evictionExpired => cases hnew
  | parted _ hp | partingExpired _ _ hp =>
      cases hp with
      | vacated => exact absurd rfl hold
      | requested | refused => cases hnew
  | stopped hout hin =>
      have hnone : _ = none := (roles_shutdown (.stopped hout hin)).2.1
      rw [hnone] at hnew
      cases hnew
  | _ => exact absurd rfl hold

/-- A member that is still there after a turn stays the oldest. -/
theorem oldest_regroups {t : Turn} (hc : Consistent m) (h : m.Regroups t)
    (hv : m.members.head? = some v) (hstill : v ∈ t.machine.members) :
    t.machine.members.head? = some v := by
  obtain ⟨rest, hrest⟩ := List.head?_eq_some_iff.mp hv
  cases h with
  | unchanged hmembers => rw [hmembers, hv]
  | joined d _ hmembers => rw [hmembers, List.head?_append, hv, Option.some_or]
  | parted d _ hmembers =>
      have hne : v ≠ d := (hc.nodup.mem_erase_iff.mp (hmembers ▸ hstill)).1
      rw [hmembers, hrest, List.erase_cons_tail (by simpa using hne)]
      rfl

theorem evictsOldest_fresh (capacity : Nat) (timeout : Duration) (policy : Policy) :
    (Machine.fresh capacity timeout policy).EvictsOldest := by
  intro d v hout
  cases hout

theorem evictsOldest_outcome (hc : Consistent m) (h : m.EvictsOldest)
    (ho : Outcome env m msg es m') : m'.EvictsOldest := by
  intro d v hnew
  have hc' : Consistent m' := consistent_outcome hc ho
  have hv : m.members.head? = some v := by
    by_cases hold : m.outgoing = m'.outgoing
    · exact h d v (hold.trans hnew)
    · exact oldest_chosen ho hold hnew
  -- the victim is on its way out, so it is still there
  exact oldest_regroups hc (regroups_outcome hc ho) hv (hc'.leaving_member (hc'.awaiting hnew))

/-! ## The order of the members -/

/-- The devices admitted in a run, in order, as often as they were. -/
def Machine.admissions : List (Surroundings × Message) → Machine → List Address
  | [], _ => []
  | o :: rest, m =>
    (m.handle o.1 o.2).machine.members.filter (· ∉ m.members)
      ++ admissions rest (m.handle o.1 o.2).machine

theorem admissions_concat (occasions : List (Surroundings × Message))
    (o : Surroundings × Message) (m : Machine) :
    m.admissions (occasions ++ [o])
      = m.admissions occasions
        ++ ((m.run occasions).machine.handle o.1 o.2).machine.members.filter
            (· ∉ (m.run occasions).machine.members) := by
  induction occasions generalizing m with
  | nil => exact List.append_nil _
  | cons o' rest ih =>
      have hrun : (m.run (o' :: rest)).machine = ((m.handle o'.1 o'.2).machine.run rest).machine :=
        machine_run_append [o'] rest m
      rw [hrun, List.cons_append, Machine.admissions, ih, Machine.admissions, List.append_assoc]

/-- Of the places of each element in a list, `dedup` keeps the last. -/
theorem dedup_concat (log : List Address) (d : Address) :
    (log ++ [d]).dedup = log.dedup.filter (· ≠ d) ++ [d] := by
  induction log with
  | nil => rfl
  | cons e log ih =>
      rw [List.cons_append]
      by_cases he : e ∈ log
      · rw [List.dedup_cons_of_mem he, List.dedup_cons_of_mem (List.mem_append_left _ he), ih]
      rw [List.dedup_cons_of_notMem he]
      by_cases hed : e = d
      · subst hed
        rw [List.dedup_cons_of_mem (by simp), ih, List.filter_cons_of_neg (by simp)]
      · rw [List.dedup_cons_of_notMem (by simp [he, hed]), ih,
          List.filter_cons_of_pos (by simpa using hed), List.cons_append]

/-- The members stay in the order of their latest admissions, whatever a turn does to them. -/
theorem ordered_regroups {t : Turn} {log : List Address} (h : m.Regroups t)
    (hlog : m.members.Sublist log.dedup) :
    t.machine.members.Sublist (log ++ t.machine.members.filter (· ∉ m.members)).dedup := by
  have hnobody : ∀ members : List Address, members ⊆ m.members →
      members.filter (· ∉ m.members) = [] :=
    fun members hsub => List.filter_eq_nil_iff.mpr fun e he => by simp [hsub he]
  cases h with
  | unchanged hmembers =>
      rw [hmembers, hnobody _ (List.Subset.refl _), List.append_nil]
      exact hlog
  | joined d hd hmembers =>
      have hnew : (m.members ++ [d]).filter (· ∉ m.members) = [d] := by
        rw [List.filter_append, hnobody _ (List.Subset.refl _)]
        simp [hd]
      -- an earlier admission of the device counts no more
      have hothers : m.members.Sublist (log.dedup.filter (· ≠ d)) := by
        have hfilter : m.members.filter (· ≠ d) = m.members :=
          List.filter_eq_self.mpr fun e he => by simpa using ne_of_mem_of_not_mem he hd
        exact hfilter ▸ hlog.filter _
      rw [hmembers, hnew, dedup_concat]
      exact hothers.append_right [d]
  | parted d _ hmembers =>
      rw [hmembers, hnobody _ List.erase_subset, List.append_nil]
      exact List.erase_sublist.trans hlog

theorem ordered_run (capacity : Nat) (timeout : Duration) (policy : Policy)
    (occasions : List (Surroundings × Message)) :
    let start := Machine.fresh capacity timeout policy
    (start.run occasions).machine.members.Sublist (start.admissions occasions).dedup := by
  intro start
  induction occasions using List.reverseRecOn with
  | nil => exact List.nil_sublist _
  | append_singleton occasions o ih =>
      have hc : Consistent (start.run occasions).machine :=
        consistent_run capacity timeout policy occasions
      rw [machine_run_concat, admissions_concat]
      exact ordered_regroups (regroups_handle o.1 o.2 hc) ih

/-- **Seniority decides who makes room and who is primary.** After every run the members stand
in the order of their latest admissions. Any further message leaves them as they are, puts one
device at the end and makes it primary, or removes one; only where that was the primary member
is another elected. A handler that starts an eviction finds its victim at the front, and
there the victim is as long as its place is waited for. -/
theorem seniority_decides (capacity : Nat) (timeout : Duration) (policy : Policy)
    (occasions : List (Surroundings × Message)) (env : Surroundings) (msg : Message) :
    let start := Machine.fresh capacity timeout policy
    let m := (start.run occasions).machine
    m.members.Sublist (start.admissions occasions).dedup
      ∧ m.Regroups (m.handle env msg)
      ∧ (∀ w ∈ m.workings env msg, ∀ d v, w.start.machine.outgoing ≠ w.finish.machine.outgoing →
          w.finish.machine.outgoing = some ⟨d, .awaitingEviction v⟩ →
            w.start.machine.members.head? = some v)
      ∧ ∀ d v, m.outgoing = some ⟨d, .awaitingEviction v⟩ → m.members.head? = some v := by
  intro start m
  have hc : Consistent m := consistent_run capacity timeout policy occasions
  have holdest : m.EvictsOldest :=
    (run_keeps (I := fun _ m => m.EvictsOldest) (fun _ h => h)
      (fun hc _ h ho => evictsOldest_outcome hc h ho) occasions
      (consistent_fresh capacity timeout policy) (evictsOldest_fresh capacity timeout policy)).2
  refine ⟨ordered_run capacity timeout policy occasions, regroups_handle env msg hc, ?_, holdest⟩
  intro w hw d v hold hnew
  have hbegin : Consistent w.start.machine :=
    ((handle_workings (I := fun _ => True) (fun _ h => h) (fun _ h _ => h) env msg hc trivial).2
      w hw).1
  exact oldest_chosen (w.outcome hbegin).1 hold hnew

/-- The primary member drops while the second is on its way out: the first, which stays, is
elected. Then the first drops as well, and the role is left with the second. -/
example :
    let env := ({} : ScriptedStack).surroundings ({} : Registry).facts
    let first := Address.of 0 0 0 0 0 1
    let second := Address.of 0 0 0 0 0 2
    let third := Address.of 0 0 0 0 0 3
    let linking : List (Surroundings × Message) := [first, second, third].flatMap fun d =>
      [(env, .request (.connect d)), (env, .event (.link d .connected))]
    let m := ((Machine.fresh 3 (.ofMillis 30000) ⟨false⟩).run
      (linking ++ [(env, .request (.disconnect second))])).machine
    let dropped := m.handle env (.event (.link third .disconnected))
    let left := dropped.machine.handle env (.event (.link first .disconnected))
    m.members = [first, second, third] ∧ m.primary = some third
      ∧ dropped.machine.primary = some first
      ∧ dropped.notices
        = [.link third .connected .disconnected, .link first .disconnected .connected]
      ∧ left.machine.primary = some second
      ∧ left.notices = [.link first .connected .disconnected] := by
  decide +kernel

end AudioLink
