import Mathlib.Data.List.Induction
import AudioLink.Proofs.Outcome

/-!
# Whole runs

A message is worked on, and then the requests that waited for it, one after another.
`handle_cases` splits what the machine does about a message accordingly: an outcome of the
message, and then outcomes of requests, each found at the head of the queue of a stable
machine. `handle_keeps` turns it into the only induction over a turn that an invariant
needs, and `run_keeps` does the same for a run of messages from a new machine.
-/

namespace AudioLink

variable {env : Surroundings} {m m' : Machine} {d : Address} {es : List Effect}

/-! ## Every outcome is consistent -/

theorem consistent_parted (h : Consistent m)
    (hp : Parted env m d es m') : Consistent m' := by
  have hgone : Orderly ((m.endParting d).expel d) := orderly_parted h.toOrderly
  cases hp with
  | vacated hout => exact hgone.consistent hout
  | @requested e hout hacc =>
      have hdevice := Roles.outgoingDevice_eq hout
      have hfresh := hgone.outgoing_fresh (d := e) hdevice
      refine { orderly_awaitLink hgone hfresh.1 hfresh.2 ?_ with awaiting := ?_, requested := ?_ }
      · exact fun he => Option.some.inj (Eq.trans he.symm hdevice)
      · simp [Machine.awaitLink]
      · exact fun _ => rfl
  | @refused e hout hacc =>
      have hdevice := Roles.outgoingDevice_eq hout
      exact (orderly_abandon hgone hdevice).consistent rfl

theorem consistent_stopped {es es' : List Effect} {m₁ m₂ : Machine} (h : Consistent m)
    (hout : OutgoingDropped env m es m₁) (hin : IncomingDropped env m₁ es' m₂) :
    Consistent m₂.stop := by
  have h₁ : Consistent m₁ := by
    cases hout with
    | absent => exact h
    | awaiting hout | requested hout =>
        exact { consistent_abandon h (Roles.outgoingDevice_eq hout) with }
  have h₂ : Consistent m₂ := by
    cases hin with
    | absent => exact h₁
    | present hin =>
        exact { orderly_lose h₁.toOrderly hin with
          awaiting := h₁.awaiting, requested := h₁.requested }
  exact { h₂ with }

/-- **A consistent machine stays consistent, whatever it works on.** -/
theorem consistent_outcome {msg : Message} (h : Consistent m) (ho : Outcome env m msg es m') :
    Consistent m' := by
  have ho' := h.toOrderly
  cases ho with
  | connectDeferred | disconnectDeferred | nothingExpired => exact { h with }
  | linkRequested hstable hd =>
      obtain ⟨hout, hin, hleave⟩ := Roles.isStable_iff.mp hstable
      refine { orderly_awaitLink ho' hd (by simp [hin]) ?_ with awaiting := ?_, requested := ?_ }
      · simp [Roles.outgoingDevice, hout]
      · simp [Machine.awaitLink]
      · exact fun _ => hleave
  | @evictionBegun d v hstable hd hfull hv =>
      obtain ⟨hout, hin, _⟩ := Roles.isStable_iff.mp hstable
      have hv := List.mem_of_mem_head? hv
      refine { orderly_beginEviction ho' hv hd hout hin with awaiting := ?_, requested := ?_ }
      · simp [Machine.beginEviction, Machine.beginParting]
      · simp [Machine.beginEviction]
  | withdrawn hout => exact consistent_abandon h (Roles.outgoingDevice_eq hout)
  -- a stable machine links to nobody, so the stage of a link is nothing to care about
  | partingBegun hstable hd =>
      exact (orderly_beginParting ho' hd).consistent (Roles.isStable_iff.mp hstable).1
  | parted _ hp | partingExpired _ _ hp => exact consistent_parted h hp
  | dropped hd hleave =>
      exact { orderly_expel ho' hleave with awaiting := h.awaiting, requested := h.requested }
  | linkFailed hout => exact consistent_abandon h hout
  | incomingFailed hin | incomingExpired _ hin =>
      exact { orderly_lose ho' hin with awaiting := h.awaiting, requested := h.requested }
  | incomingBegun hd hflight hin =>
      exact { orderly_receive ho' hd (Roles.isInFlight_eq_false_iff.mp hflight).1 hin with
        awaiting := h.awaiting, requested := h.requested }
  | linked hout => exact (orderly_completeOutgoing ho' hout).consistent rfl
  | linkedEarly hout => exact consistent_abandon h hout
  | incomingLinked hin =>
      exact { orderly_completeIncoming ho' hin with
        awaiting := h.awaiting, requested := h.requested }
  | stayed hleave hout => exact (orderly_endParting ho').consistent hout
  | @stayedAgainst d e hout =>
      have hdevice := Roles.outgoingDevice_eq hout
      exact (orderly_abandon (orderly_endParting ho') hdevice).consistent rfl
  | admitted hd hflight =>
      have hfree := Roles.isInFlight_eq_false_iff.mp hflight
      exact { orderly_admit ho' hd hfree.1 hfree.2 with
        awaiting := h.awaiting, requested := h.requested }
  | played hd =>
      exact { orderly_play ho' hd with awaiting := h.awaiting, requested := h.requested }
  | silenced =>
      exact { orderly_silence ho' with awaiting := h.awaiting, requested := h.requested }
  | formatSet hd =>
      exact { orderly_format ho' (hd.imp_right Roles.isInFlight_iff.mp) with
        awaiting := h.awaiting, requested := h.requested }
  | @evictionExpired d v _ _ hout =>
      have hgone := consistent_abandon h (Roles.outgoingDevice_eq hout)
      exact (orderly_parted hgone.toOrderly).consistent rfl
  | linkExpired _ hout => exact consistent_abandon h (Roles.outgoingDevice_eq hout)
  | stopped hout hin => exact consistent_stopped h hout hin
  | _ => exact h

/-! ## A message and the requests that waited for it -/

/-- A machine carries out the waiting requests `rs`, until none is left or it is busy. -/
inductive Replay (env : Surroundings) :
    Machine → List Request → List Effect → Machine → Prop where
  | idle {m : Machine} (h : m.deferred = []) : Replay env m [] [] m
  | busy {m : Machine} (h : m.isStable = false) : Replay env m [] [] m
  | next {m m₁ m₂ : Machine} {r : Request} {rest rs : List Request} {es es' : List Effect}
      (hrun : m.stopped = false) (hstable : m.isStable = true) (hqueue : m.deferred = r :: rest)
      (ho : Outcome env { m with deferred := rest } (.request r) es m₁)
      (hr : Replay env m₁ rs es' m₂) : Replay env m (r :: rs) (es ++ es') m₂

/-- A stable machine never lets a request wait. -/
theorem deferred_outcome {r : Request} (hstable : m.isStable = true)
    (ho : Outcome env m (.request r) es m') :
    m'.deferred = m.deferred ∧ m'.stopped = m.stopped := by
  cases ho with
  | connectDeferred _ _ hbusy | disconnectDeferred _ _ _ hbusy =>
      rw [hstable] at hbusy
      exact absurd hbusy (by simp)
  | _ => exact ⟨rfl, rfl⟩

/-- A machine only stops when it is told to. -/
theorem stopped_outcome {msg : Message} (hmsg : msg ≠ .shutdown) (ho : Outcome env m msg es m') :
    m'.stopped = m.stopped := by
  cases ho with
  | stopped => exact absurd rfl hmsg
  | parted _ hp | partingExpired _ _ hp => cases hp <;> rfl
  | _ => rfl

/-- Nothing waits in a machine that was told to stop, and nothing is timed. -/
theorem shutdown_outcome (ho : Outcome env m .shutdown es m') :
    m'.stopped = true ∧ m'.deferred = [] ∧ m'.timers.armed = ∅ := by
  cases ho with
  | nothing h => nomatch h
  | stopped => exact ⟨rfl, rfl, rfl⟩

/-- A machine that was told to stop keeps its members, and nobody is being linked. -/
theorem roles_shutdown (ho : Outcome env m .shutdown es m') :
    m'.members = m.members ∧ m'.outgoing = none ∧ m'.incoming = none := by
  cases ho with
  | nothing h => nomatch h
  | @stopped _ _ m₁ m₂ hout hin =>
      have h₁ : m₁.members = m.members ∧ m₁.outgoing = none := by
        cases hout with
        | absent hout => exact ⟨rfl, hout⟩
        | awaiting | requested => exact ⟨rfl, rfl⟩
      have h₂ : m₂.members = m₁.members ∧ m₂.outgoing = m₁.outgoing ∧ m₂.incoming = none := by
        cases hin with
        | absent hin => exact ⟨rfl, rfl, hin⟩
        | present => exact ⟨rfl, rfl, rfl⟩
      exact ⟨h₂.1.trans h₁.1, h₂.2.1.trans h₁.2, h₂.2.2⟩

/-- Nothing that a machine works on changes its settings. -/
theorem settings_outcome {msg : Message} (ho : Outcome env m msg es m') :
    m'.capacity = m.capacity ∧ m'.policy = m.policy := by
  cases ho with
  | stopped hout hin => cases hout <;> cases hin <;> exact ⟨rfl, rfl⟩
  | parted _ hp | partingExpired _ _ hp => cases hp <;> exact ⟨rfl, rfl⟩
  | _ => exact ⟨rfl, rfl⟩

/-- A request changes nothing about who is a member and who is primary; reports do. -/
theorem members_request {r : Request} (ho : Outcome env m (.request r) es m') :
    m'.members = m.members ∧ m'.primary = m.primary := by
  cases ho <;> exact ⟨rfl, rfl⟩

/-- A request leaves the incoming link alone. -/
theorem incoming_request {r : Request} (ho : Outcome env m (.request r) es m') :
    m'.incoming = m.incoming := by
  cases ho <;> rfl

theorem members_replay {rs : List Request} (hr : Replay env m rs es m') :
    m'.members = m.members ∧ m'.primary = m.primary := by
  induction hr with
  | idle | busy => exact ⟨rfl, rfl⟩
  | next _ _ _ ho _ ih =>
      obtain ⟨hmem, hprim⟩ := members_request ho
      exact ⟨ih.1.trans hmem, ih.2.trans hprim⟩

theorem incoming_replay {rs : List Request} (hr : Replay env m rs es m') :
    m'.incoming = m.incoming := by
  induction hr with
  | idle | busy => rfl
  | next _ _ _ ho _ ih =>
      have hstep := incoming_request ho
      exact ih.trans hstep

/-- Nothing waits in a stable machine once the waiting requests were carried out. -/
theorem deferred_replay {rs : List Request} (hr : Replay env m rs es m')
    (hstable : m'.isStable = true) : m'.deferred = [] := by
  induction hr with
  | idle hqueue => exact hqueue
  | busy hbusy =>
      rw [hstable] at hbusy
      exact absurd hbusy (by simp)
  | next _ _ _ _ _ ih => exact ih hstable

theorem stopped_replay {rs : List Request} (hr : Replay env m rs es m') :
    m'.stopped = m.stopped := by
  induction hr with
  | idle | busy => rfl
  | @next m m₁ m₂ r rest _ _ _ _ _ _ ho _ ih =>
      have hstep := stopped_outcome (m := { m with deferred := rest }) (by simp) ho
      exact ih.trans hstep

theorem replay_cases (env : Surroundings) (queue : List Request) (t : Turn)
    (hqueue : t.machine.deferred = queue) (hrun : t.machine.stopped = false ∨ queue = []) :
    ∃ rs, t.Continues (Replay env t.machine rs) (t.replay env queue) := by
  induction queue generalizing t with
  | nil => exact ⟨[], [], t.machine, t.goOn_nil.symm, .idle hqueue⟩
  | cons r rest ih =>
      have hrun : t.machine.stopped = false := hrun.resolve_right (by simp)
      by_cases hstable : t.machine.isStable = true
      · obtain ⟨es, m₁, heq, ho⟩ := Turn.carryOut_outcome env
          (t.goOn [] { t.machine with deferred := rest }) r hstable
        have hkeep := deferred_outcome (m := { t.machine with deferred := rest }) hstable ho
        obtain ⟨rs, es', m₂, heq', hr⟩ := ih (t.goOn es m₁) hkeep.1 (Or.inl (hkeep.2.trans hrun))
        refine ⟨r :: rs, es ++ es', m₂, ?_, .next hrun hstable hqueue ho hr⟩
        rw [Turn.replay, if_pos hstable, Turn.change_eq, heq, Turn.goOn_goOn]
        exact heq'.trans (Turn.goOn_goOn ..)
      -- the last request has made the machine busy: the others wait on
      · rw [Bool.not_eq_true] at hstable
        rw [Turn.replay, hstable]
        exact ⟨[], [], t.machine, t.goOn_nil.symm, .busy hstable⟩

/-- **What a machine does about a message**: an outcome of it, and then of what waited. -/
theorem handle_cases (env : Surroundings) (msg : Message) (hc : Consistent m)
    (hrun : m.stopped = false) :
    ∃ es m₁ rs es' m₂, m.handle env msg = ⟨m₂, es ++ es'⟩ ∧ Outcome env m msg es m₁
      ∧ Replay env m₁ rs es' m₂ := by
  obtain ⟨es, m₁, heq, ho⟩ := Turn.process_outcome env ⟨m, []⟩ msg hc
  have hstop : m₁.stopped = false ∨ m₁.deferred = [] := by
    by_cases hmsg : msg = .shutdown
    · exact Or.inr (shutdown_outcome (hmsg ▸ ho)).2.1
    · exact Or.inl ((stopped_outcome hmsg ho).trans hrun)
  obtain ⟨rs, es', m₂, heq', hr⟩ := replay_cases env m₁.deferred
    (Turn.goOn es m₁ ⟨m, []⟩) rfl hstop
  refine ⟨es, m₁, rs, es', m₂, ?_, ho, hr⟩
  rw [Machine.handle, hrun, heq]
  exact heq'.trans (Turn.goOn_goOn ..)

theorem handle_stopped (msg : Message) (hstop : m.stopped = true) :
    m.handle env msg = ⟨m, []⟩ := by
  rw [Machine.handle, if_pos hstop]

/-- A machine works on until it is told to stop. -/
theorem running_handle {msg : Message} (hc : Consistent m) (hrun : m.stopped = false)
    (hmsg : msg ≠ .shutdown) : (m.handle env msg).machine.stopped = false := by
  obtain ⟨es, m₁, rs, es', m₂, heq, ho, hr⟩ := handle_cases env msg hc hrun
  rw [heq]
  exact (stopped_replay hr).trans ((stopped_outcome hmsg ho).trans hrun)

/-- No request waits for a stable machine. -/
theorem patient_handle (msg : Message) (hc : Consistent m) (hrun : m.stopped = false)
    (hstable : (m.handle env msg).machine.isStable = true) :
    (m.handle env msg).machine.deferred = [] := by
  obtain ⟨es, m₁, rs, es', m₂, heq, ho, hr⟩ := handle_cases env msg hc hrun
  rw [heq] at hstable ⊢
  exact deferred_replay hr hstable

/-! ## What every turn keeps -/

section Keeps

variable {I : List Effect → Machine → Prop}
  (hqueue : ∀ {log m} rest, I log m → I log { m with deferred := rest })
  (hstep : ∀ {env log m msg es m'}, Consistent m → m.stopped = false → I log m →
    Outcome env m msg es m' → I (log ++ es) m')

include hqueue hstep

theorem replay_keeps {log : List Effect} {rs : List Request} (hr : Replay env m rs es m')
    (hc : Consistent m) (h : I log m) : Consistent m' ∧ I (log ++ es) m' := by
  induction hr generalizing log with
  | idle | busy => exact ⟨hc, by rwa [List.append_nil]⟩
  | @next m m₁ m₂ r rest _ _ _ hrun hstable hq ho hr ih =>
      have hcut := consistent_deferred rest hc
      rw [← List.append_assoc]
      exact ih (consistent_outcome hcut ho) (hstep hcut hrun (hqueue rest h) ho)

/-- **What every outcome keeps, a whole turn keeps.** -/
theorem handle_keeps (env : Surroundings) (msg : Message) (log : List Effect)
    (hc : Consistent m) (h : I log m) :
    Consistent (m.handle env msg).machine
      ∧ I (log ++ (m.handle env msg).effects) (m.handle env msg).machine := by
  cases hrun : m.stopped with
  | true =>
      rw [handle_stopped msg hrun]
      exact ⟨hc, by rwa [List.append_nil]⟩
  | false =>
      obtain ⟨es, m₁, rs, es', m₂, heq, ho, hr⟩ := handle_cases env msg hc hrun
      rw [heq]
      rw [← List.append_assoc]
      exact replay_keeps hqueue hstep hr (consistent_outcome hc ho) (hstep hc hrun h ho)

end Keeps

theorem consistent_handle (msg : Message) (hc : Consistent m) :
    Consistent (m.handle env msg).machine :=
  (handle_keeps (I := fun _ _ => True) (fun _ h => h) (fun _ _ h _ => h) env msg [] hc trivial).1

/-! ## Runs -/

namespace Machine

/-- A machine that has not begun. -/
def fresh (capacity : Nat) (timeout : Duration) (policy : Policy) : Machine where
  capacity := capacity
  timeout := timeout
  policy := policy

example (s : Settings) : ofSettings s = fresh s.capacity.toNat s.timeout ⟨s.quiet⟩ := rfl

/-- The machine handles messages in order, each in its surroundings. What was done about
all of them is kept. -/
def run (occasions : List (Surroundings × Message)) (m : Machine) : Turn :=
  occasions.foldl
    (fun t o => t.goOn (t.machine.handle o.1 o.2).effects (t.machine.handle o.1 o.2).machine)
    { machine := m }

end Machine

theorem consistent_fresh (capacity : Nat) (timeout : Duration) (policy : Policy) :
    Consistent (.fresh capacity timeout policy) where
  nodup := List.nodup_nil
  outgoing_fresh := by simp [Machine.fresh, Roles.outgoingDevice]
  incoming_fresh := by simp [Machine.fresh]
  leaving_member := by simp [Machine.fresh]
  primary_member := by simp [Machine.fresh]
  primary_exists := fun _ => rfl
  playing_member := by simp [Machine.fresh]
  format_held := by simp [Machine.fresh]
  awaiting := by simp [Machine.fresh]
  requested := by simp [Machine.fresh]

/-- A run goes on with one more message. -/
theorem run_concat (occasions : List (Surroundings × Message)) (o : Surroundings × Message)
    (m : Machine) :
    m.run (occasions ++ [o])
      = (m.run occasions).goOn ((m.run occasions).machine.handle o.1 o.2).effects
          ((m.run occasions).machine.handle o.1 o.2).machine := by
  rw [Machine.run, List.foldl_append]
  rfl

theorem machine_run_concat (occasions : List (Surroundings × Message))
    (o : Surroundings × Message) (m : Machine) :
    (m.run (occasions ++ [o])).machine = ((m.run occasions).machine.handle o.1 o.2).machine := by
  rw [run_concat, Turn.machine_goOn]

theorem machine_run_append (occasions later : List (Surroundings × Message)) (m : Machine) :
    (m.run (occasions ++ later)).machine = ((m.run occasions).machine.run later).machine := by
  induction later using List.reverseRecOn with
  | nil =>
      rw [List.append_nil]
      rfl
  | append_singleton later o ih =>
      rw [← List.append_assoc, machine_run_concat, machine_run_concat, ih]

/-- What every message keeps, a whole run keeps. -/
theorem run_induction {P : Turn → Prop} (occasions : List (Surroundings × Message))
    {start : Machine} (h : P { machine := start })
    (hstep : ∀ (t : Turn) (env : Surroundings) (msg : Message), P t →
      P (t.goOn (t.machine.handle env msg).effects (t.machine.handle env msg).machine)) :
    P (start.run occasions) :=
  List.foldlRecOn occasions _ h fun t ht o _ => hstep t o.1 o.2 ht

/-- **What every outcome keeps, holds after every run from a new machine.** -/
theorem run_keeps {I : List Effect → Machine → Prop}
    (hqueue : ∀ {log m} rest, I log m → I log { m with deferred := rest })
    (hstep : ∀ {env log m msg es m'}, Consistent m → m.stopped = false → I log m →
      Outcome env m msg es m' → I (log ++ es) m')
    (occasions : List (Surroundings × Message)) {start : Machine} (hc : Consistent start)
    (h : I [] start) :
    Consistent (start.run occasions).machine
      ∧ I (start.run occasions).effects (start.run occasions).machine :=
  -- what was done before the next message is arbitrary but for what has been kept
  run_induction (P := fun t => Consistent t.machine ∧ I t.effects t.machine) occasions ⟨hc, h⟩
    fun t env msg ht => handle_keeps hqueue hstep env msg t.effects ht.1 ht.2

/-- What every message keeps of the machine, holds after every run from a new one. -/
theorem machine_run_keeps {P : Machine → Prop} (capacity : Nat) (timeout : Duration)
    (policy : Policy) (occasions : List (Surroundings × Message))
    (h : P (.fresh capacity timeout policy))
    (hstep : ∀ {m : Machine} (env : Surroundings) (msg : Message), Consistent m → P m →
      P (m.handle env msg).machine) :
    P ((Machine.fresh capacity timeout policy).run occasions).machine :=
  (run_induction (P := fun t => Consistent t.machine ∧ P t.machine) occasions
    ⟨consistent_fresh capacity timeout policy, h⟩
    fun _ env msg ht => ⟨consistent_handle msg ht.1, hstep env msg ht.1 ht.2⟩).2

end AudioLink
