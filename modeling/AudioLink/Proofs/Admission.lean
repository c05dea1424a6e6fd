import AudioLink.Proofs.Calls
import AudioLink.Proofs.Queue

/-!
# Nobody is let in unasked and unwelcome

A device becomes a member in one of four ways: the machine was linking to it, it was linking to
the machine, or it came up by itself, before or after the machine thought of linking to it.
Priorities and bonds may be others at every message, and so may the answer of the policy.

What is let in without having been asked for, is let in by the policy as it stands at that
message: when a link from outside begins, and again when it is up. What was asked for leads
back to the host: a machine links to a device only in a handler of a request for that very
link, and every request that is carried out late was made before. So a device that the policy
turns away becomes a member only after somebody asked for it.
-/

namespace AudioLink

variable {env : Surroundings} {m m' : Machine} {d : Address} {es : List Effect} {msg : Message}
  {log : List Message}

/-! ## One handler -/

/-- A link from outside begins only where it is welcome. -/
theorem allows_of_incoming (ho : Outcome env m msg es m') (hold : m.incoming ≠ some d)
    (hnew : m'.incoming = some d) : m.policy.allows env.facts d false = true := by
  cases ho with
  | @incomingBegun e _ _ _ _ hallow =>
      obtain rfl : e = d := Option.some.inj hnew
      exact hallow
  | incomingFailed | incomingExpired | incomingLinked => cases hnew
  | parted _ hp | partingExpired _ _ hp => cases hp <;> exact absurd hnew hold
  | stopped hout hin =>
      rw [(roles_shutdown (.stopped hout hin)).2.2] at hnew
      cases hnew
  | _ => exact absurd hnew hold

/-- A device becomes a member if the machine was linking to it, or if it is welcome. -/
theorem allows_of_member (ho : Outcome env m msg es m') (hold : d ∉ m.members)
    (hnew : d ∈ m'.members) :
    m.outgoingDevice = some d ∨ m.policy.allows env.facts d false = true := by
  cases ho with
  | linked hout =>
      obtain rfl := (Machine.mem_enlist.mp hnew).resolve_left hold
      exact Or.inl hout
  | incomingLinked _ hallow | admitted _ _ hallow =>
      obtain rfl := (Machine.mem_enlist.mp hnew).resolve_left hold
      exact Or.inr hallow
  | dropped | evictionExpired => exact absurd (Machine.mem_expel.mp hnew).1 hold
  | parted _ hp | partingExpired _ _ hp =>
      cases hp <;> exact absurd (Machine.mem_expel.mp hnew).1 hold
  | stopped hout hin =>
      rw [(roles_shutdown (.stopped hout hin)).1] at hnew
      exact absurd hnew hold
  | _ => exact absurd hnew hold

/-- A machine begins to link to a device only when it is asked to. -/
theorem request_of_outgoing (ho : Outcome env m msg es m') (hold : m.outgoingDevice ≠ some d)
    (hnew : m'.outgoingDevice = some d) : msg = .request (.connect d) := by
  cases ho with
  | linkRequested | evictionBegun =>
      obtain rfl := Option.some.inj hnew
      rfl
  | withdrawn | linkFailed | linked | linkedEarly | stayedAgainst | linkExpired
  | evictionExpired => cases hnew
  | parted _ hp | partingExpired _ _ hp =>
      cases hp with
      | vacated => exact absurd hnew hold
      -- the link had been waiting to be asked for
      | requested hout =>
          obtain rfl := Option.some.inj hnew
          exact absurd (Roles.outgoingDevice_eq hout) hold
      | refused => cases hnew
  | stopped hout hin =>
      have hnone : _ = none := (roles_shutdown (.stopped hout hin)).2.1
      rw [Roles.outgoingDevice, hnone] at hnew
      cases hnew
  | _ => exact absurd hnew hold

/-! ## One message -/

section Working

variable {P : Machine → Prop} (hqueue : ∀ {m} rest, P { m with deferred := rest } → P m)

include hqueue

theorem replay_by_working (env : Surroundings) (queue : List Request) {t : Turn}
    (hold : ¬P t.machine) (hnew : P (t.replay env queue).machine) :
    ∃ w ∈ t.workings env queue, ¬P w.start.machine ∧ P w.finish.machine := by
  induction queue generalizing t with
  | nil => exact absurd hnew hold
  | cons r rest ih =>
      by_cases hstable : t.machine.isStable = true
      · let w : Working := ⟨env, t.change fun m => { m with deferred := rest }, .request r⟩
        have hbegin : ¬P w.start.machine := fun h => hold (hqueue rest h)
        have hsame : w.start.carryOut env r = w.finish :=
          Turn.carryOut_eq_submit env w.start r hstable
        rw [Turn.replay, if_pos hstable] at hnew
        rw [Turn.workings, if_pos hstable]
        by_cases hdone : P w.finish.machine
        · exact ⟨w, List.mem_cons_self, hbegin, hdone⟩
        · obtain ⟨w', hw', hchange⟩ := ih hdone (hsame ▸ hnew)
          exact ⟨w', List.mem_cons_of_mem _ hw', hchange⟩
      · rw [Turn.replay, if_neg hstable] at hnew
        exact absurd hnew hold

/-- **What a machine becomes about a message, it becomes in one of the handlers.** -/
theorem handle_by_working (env : Surroundings) (msg : Message) (hold : ¬P m)
    (hnew : P (m.handle env msg).machine) :
    ∃ w ∈ m.workings env msg, ¬P w.start.machine ∧ P w.finish.machine := by
  cases hrun : m.stopped with
  | true =>
      rw [handle_stopped msg hrun] at hnew
      exact absurd hnew hold
  | false =>
      let w : Working := ⟨env, { machine := m }, msg⟩
      rw [Machine.handle, if_neg (by simp [hrun])] at hnew
      rw [Machine.workings, if_neg (by simp [hrun])]
      by_cases hdone : P w.finish.machine
      · exact ⟨w, List.mem_cons_self, hold, hdone⟩
      · obtain ⟨w', hw', hchange⟩ := replay_by_working hqueue env _ hdone hnew
        exact ⟨w', List.mem_cons_of_mem _ hw', hchange⟩

end Working

/-- A message lets nobody in that the machine was not linking to and that is not welcome. -/
theorem welcome_handle (env : Surroundings) (msg : Message) (d : Address) (hc : Consistent m) :
    ((m.handle env msg).machine.incoming = some d → m.incoming ≠ some d →
        m.policy.allows env.facts d false = true)
      ∧ (d ∈ (m.handle env msg).machine.members → d ∉ m.members →
        m.outgoingDevice = some d ∨ m.policy.allows env.facts d false = true) := by
  cases hrun : m.stopped with
  | true =>
      rw [handle_stopped msg hrun]
      exact ⟨fun hnew hold => absurd hnew hold, fun hnew hold => absurd hnew hold⟩
  | false =>
      obtain ⟨es, m₁, rs, es', m₂, heq, ho, hr⟩ := handle_cases env msg hc hrun
      -- the requests that are carried out afterwards touch neither
      rw [heq, incoming_replay hr, (members_replay hr).1]
      exact ⟨fun hnew hold => allows_of_incoming ho hold hnew,
        fun hnew hold => allows_of_member ho hold hnew⟩

/-! ## Every request was made -/

/-- The messages so far account for the link that is being brought up and for all that waits. -/
structure AccountedFor (log : List Message) (m : Machine) : Prop where
  waiting : ∀ r ∈ m.deferred, .request r ∈ log
  outgoing : ∀ {d}, m.outgoingDevice = some d → .request (.connect d) ∈ log

theorem accounted_mono {msgs : List Message} (h : AccountedFor log m) :
    AccountedFor (log ++ msgs) m where
  waiting := fun r hr => List.mem_append_left _ (h.waiting r hr)
  outgoing := fun hout => List.mem_append_left _ (h.outgoing hout)

theorem accounted_outcome (h : AccountedFor log m) (hmsg : msg ∈ log)
    (ho : Outcome env m msg es m') : AccountedFor log m' where
  waiting := by
    intro r hr
    by_cases hend : msg = .shutdown
    · rw [(shutdown_outcome (hend ▸ ho)).2.1] at hr
      cases hr
    · obtain ⟨joined, hjoin, hj⟩ := joins_outcome hend ho
      rw [hjoin] at hr
      rcases List.mem_append.mp hr with hr | hr
      · exact h.waiting r hr
      · rcases hj with rfl | ⟨q, rfl, rfl, -⟩
        · cases hr
        · obtain rfl := List.mem_singleton.mp hr
          exact hmsg
  outgoing := by
    intro d hnew
    by_cases hold : m.outgoingDevice = some d
    · exact h.outgoing hold
    · exact request_of_outgoing ho hold hnew ▸ hmsg

theorem accounted_replay {rs : List Request} (h : AccountedFor log m) (hr : Replay env m rs es m') :
    AccountedFor log m' := by
  induction hr with
  | idle | busy => exact h
  | @next m m₁ m₂ r rest _ _ _ _ _ hqueue ho _ ih =>
      have hcut : AccountedFor log { m with deferred := rest } :=
        { h with waiting := fun r' hr' => h.waiting r' (hqueue ▸ List.mem_cons_of_mem r hr') }
      have hmsg : Message.request r ∈ log := h.waiting r (hqueue ▸ List.mem_cons_self)
      exact ih (accounted_outcome hcut hmsg ho)

theorem accounted_handle (env : Surroundings) (msg : Message) (hc : Consistent m)
    (h : AccountedFor log m) : AccountedFor (log ++ [msg]) (m.handle env msg).machine := by
  have hbefore : AccountedFor (log ++ [msg]) m := accounted_mono h
  cases hrun : m.stopped with
  | true =>
      rw [handle_stopped msg hrun]
      exact hbefore
  | false =>
      obtain ⟨es, m₁, rs, es', m₂, heq, ho, hr⟩ := handle_cases env msg hc hrun
      rw [heq]
      exact accounted_replay (accounted_outcome hbefore (by simp) ho) hr

theorem accounted_run (capacity : Nat) (timeout : Duration) (policy : Policy)
    (occasions : List (Surroundings × Message)) :
    AccountedFor (occasions.map Prod.snd)
      ((Machine.fresh capacity timeout policy).run occasions).machine := by
  induction occasions using List.reverseRecOn with
  | nil =>
      exact { waiting := by simp [Machine.run, Machine.fresh]
              outgoing := by simp [Machine.run, Machine.fresh, Roles.outgoingDevice] }
  | append_singleton occasions o ih =>
      have hc := consistent_run capacity timeout policy occasions
      rw [List.map_append, machine_run_concat]
      exact accounted_handle o.1 o.2 hc ih

/-- **Nobody is let in unasked and unwelcome**, however the priorities and the bonds change
between the messages of a run. A device that begins to link to the machine about a message is
welcome at that message; one that becomes a member is welcome, or the machine was linking to
it; and what makes the machine link to it is a handler of a request for it, whether the request
comes in or has waited. So a device that is not welcome when it becomes a member, as any is in
quiet mode, was asked for earlier in the run. -/
theorem admitted_if_welcome_or_asked_for (capacity : Nat) (timeout : Duration) (policy : Policy)
    (occasions : List (Surroundings × Message)) (env : Surroundings) (msg : Message)
    (d : Address) :
    let m := ((Machine.fresh capacity timeout policy).run occasions).machine
    let m' := (m.handle env msg).machine
    (m'.incoming = some d → m.incoming ≠ some d → policy.allows env.facts d false = true)
      ∧ (d ∈ m'.members → d ∉ m.members →
          m.outgoingDevice = some d ∨ policy.allows env.facts d false = true)
      ∧ (∀ w ∈ m.workings env msg, w.finish.machine.outgoingDevice = some d →
          w.start.machine.outgoingDevice ≠ some d → w.message = .request (.connect d))
      ∧ (m'.outgoingDevice = some d → m.outgoingDevice ≠ some d →
          ∃ w ∈ m.workings env msg, w.message = .request (.connect d))
      ∧ (d ∈ m'.members → d ∉ m.members →
          policy.quiet = true ∨ policy.allows env.facts d false = false →
            .request (.connect d) ∈ occasions.map Prod.snd) := by
  intro m m'
  have hc : Consistent m := consistent_run capacity timeout policy occasions
  have hpolicy : m.policy = policy := (provided_run capacity timeout policy occasions).policy_eq
  obtain ⟨hincoming, hmember⟩ := welcome_handle env msg d hc
  rw [hpolicy] at hincoming hmember
  have hbegins : ∀ w ∈ m.workings env msg, w.finish.machine.outgoingDevice = some d →
      w.start.machine.outgoingDevice ≠ some d → w.message = .request (.connect d) := by
    intro w hw hnew hold
    have hwc := ((handle_workings (I := fun _ => True) (fun _ h => h) (fun _ h _ => h) env msg hc
      trivial).2 w hw).1
    exact request_of_outgoing (w.outcome hwc).1 hold hnew
  refine ⟨hincoming, hmember, hbegins, fun hnew hold => ?_, fun hnew hold hwhy => ?_⟩
  · obtain ⟨w, hw, hbefore, hafter⟩ :=
      handle_by_working (P := fun m => m.outgoingDevice = some d) (fun _ h => h) env msg hold hnew
    exact ⟨w, hw, hbegins w hw hafter hbefore⟩
  · have hunwelcome : policy.allows env.facts d false = false := by
      rcases hwhy with hquiet | hunwelcome
      · exact Policy.allows_of_quiet env.facts d hquiet
      · exact hunwelcome
    rcases hmember hnew hold with hout | hallow
    · exact (accounted_run capacity timeout policy occasions).outgoing hout
    · rw [hunwelcome] at hallow
      cases hallow

end AudioLink
