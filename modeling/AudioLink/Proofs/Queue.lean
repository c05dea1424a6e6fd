import Mathlib.Data.List.Chain
import AudioLink.Proofs.Slots
import AudioLink.Stack.Scripted

/-!
# The requests that wait

A request that comes while something is in flight joins the end of the queue, unless it
repeats the last one there for its device. Once the machine is stable, the request that has
waited longest leaves the front and is worked on like one that has just come in, and so on
while the machine stays stable.

`Turn.replay` walks down the queue as it found it. `Turn.Drains` is the loop itself, which
looks at the machine's own queue before every round and would go on forever with a request
that joins it again. The two are the same because a stable machine carries a request out at
once: nothing joins the queue while the loop runs, so what leaves it is a front part, in
order, and what is left is the rest.
-/

namespace AudioLink

variable {env : Surroundings} {m m' : Machine} {es : List Effect} {r : Request}

/-- The last request for the device in the queue. -/
def latestFor (d : Address) (queue : List Request) : Option Request :=
  (queue.filter (·.device = d)).getLast?

@[simp] theorem latestFor_nil (d : Address) : latestFor d [] = none := rfl

@[simp] theorem latestFor_join (d : Address) (queue : List Request) (r : Request) :
    latestFor d (queue ++ [r]) = if r.device = d then some r else latestFor d queue := by
  by_cases hr : r.device = d <;> simp [latestFor, hr]

/-- It is what a search from the end of the queue finds. -/
theorem find?_reverse_eq (d : Address) (queue : List Request) :
    queue.reverse.find? (·.device = d) = latestFor d queue :=
  List.getLast?_filter.symm

/-- Two requests for one device that wait one after the other are never the same: the one
is for its link to be brought up, the other for it to be taken down. -/
def Alternates (queue : List Request) : Prop :=
  ∀ d, (queue.filter (·.device = d)).IsChain (· ≠ ·)

theorem alternates_nil : Alternates [] := fun _ => .nil

/-- A front part can leave. -/
theorem alternates_of_append {front queue : List Request} (h : Alternates (front ++ queue)) :
    Alternates queue := by
  intro d
  have h := h d
  rw [List.filter_append] at h
  exact h.right_of_append

/-- A request can join that does not repeat the latest one for its device. -/
theorem alternates_join {queue : List Request} (h : Alternates queue)
    (hnew : latestFor r.device queue ≠ some r) : Alternates (queue ++ [r]) := by
  intro d
  rw [List.filter_append]
  by_cases hr : r.device = d
  · subst hr
    rw [List.filter_cons_of_pos (by simp), List.filter_nil]
    refine List.isChain_append.mpr ⟨h _, List.isChain_singleton _, ?_⟩
    intro x hx y hy hxy
    have hy : r = y := by simpa using hy
    subst hy hxy
    exact hnew hx
  · rw [List.filter_cons_of_neg (by simpa using hr), List.filter_nil, List.append_nil]
    exact h d

/-! ## What joins the queue -/

/-- What a message adds to the queue: itself or nothing. -/
def Joins (m : Machine) (msg : Message) (joined : List Request) : Prop :=
  joined = [] ∨ ∃ r, msg = .request r ∧ joined = [r] ∧ m.isStable = false
    ∧ latestFor r.device m.deferred ≠ some r

theorem joins_outcome {msg : Message} (hmsg : msg ≠ .shutdown) (ho : Outcome env m msg es m') :
    ∃ joined, m'.deferred = m.deferred ++ joined ∧ Joins m msg joined := by
  cases ho with
  | connectDeferred _ _ hbusy hnew | disconnectDeferred _ _ _ hbusy hnew =>
      rw [find?_reverse_eq] at hnew
      exact ⟨_, rfl, Or.inr ⟨_, rfl, rfl, hbusy, hnew⟩⟩
  | stopped => exact absurd rfl hmsg
  | parted _ hp | partingExpired _ _ hp =>
      cases hp <;> exact ⟨[], (List.append_nil _).symm, Or.inl rfl⟩
  | _ => exact ⟨[], (List.append_nil _).symm, Or.inl rfl⟩

theorem alternates_joined {msg : Message} {joined : List Request} (h : Alternates m.deferred)
    (hj : Joins m msg joined) : Alternates (m.deferred ++ joined) := by
  rcases hj with rfl | ⟨r, _, rfl, _, hnew⟩
  · rwa [List.append_nil]
  · exact alternates_join h hnew

/-! ## The loop -/

namespace Turn

variable {t t' : Turn} {starts : List (Turn × Request)}

/-- All that waits from now on. -/
def leaveWaiting (queue : List Request) (t : Turn) : Turn :=
  t.change fun m => { m with deferred := queue }

/-- While the machine is at work and stable, the request that has waited longest leaves the
queue and is worked on like one that comes in. Kept are the turns at which one was started. -/
inductive Drains (env : Surroundings) : Turn → List (Turn × Request) → Turn → Prop where
  | done {t : Turn}
      (h : t.machine.stopped = true ∨ t.machine.isStable = false ∨ t.machine.deferred = []) :
      Drains env t [] t
  | next {t t' : Turn} {r : Request} {rest : List Request} {starts : List (Turn × Request)}
      (hrun : t.machine.stopped = false) (hstable : t.machine.isStable = true)
      (hqueue : t.machine.deferred = r :: rest)
      (h : Drains env ((t.leaveWaiting rest).process env (.request r)) starts t') :
      Drains env t ((t.leaveWaiting rest, r) :: starts) t'

/-- The loop has one course only. -/
theorem drains_unique {t₁ t₂ : Turn} {starts₁ starts₂ : List (Turn × Request)}
    (h₁ : Drains env t starts₁ t₁) (h₂ : Drains env t starts₂ t₂) :
    starts₁ = starts₂ ∧ t₁ = t₂ := by
  induction h₁ generalizing starts₂ t₂ with
  | done hend =>
      cases h₂ with
      | done => exact ⟨rfl, rfl⟩
      | next hrun hstable hqueue => simp [hrun, hstable, hqueue] at hend
  | next hrun hstable hqueue _ ih =>
      cases h₂ with
      | done hend => simp [hrun, hstable, hqueue] at hend
      | next _ _ hqueue' h₂ =>
          obtain ⟨rfl, rfl⟩ := List.cons.inj (hqueue.symm.trans hqueue')
          obtain ⟨rfl, rfl⟩ := ih h₂
          exact ⟨rfl, rfl⟩

/-- Nothing joins the queue when a stable machine works on a request. -/
theorem deferred_process (env : Surroundings) (r : Request)
    (hstable : t.machine.isStable = true) :
    (t.process env (.request r)).machine.deferred = t.machine.deferred
      ∧ (t.process env (.request r)).machine.stopped = t.machine.stopped := by
  rw [process, ← carryOut_eq_submit env t r hstable]
  obtain ⟨es, m', heq, ho⟩ := carryOut_outcome env t r hstable
  rw [heq]
  exact deferred_outcome hstable ho

/-- Every request is started while the machine is stable. -/
theorem drains_stable (h : Drains env t starts t') : ∀ s ∈ starts, s.1.machine.isStable = true := by
  induction h with
  | done => simp
  | next _ hstable _ _ ih => exact List.forall_mem_cons.mpr ⟨hstable, ih⟩

/-- **What waited is what was started, in order, and what still waits.** -/
theorem drains_fifo (h : Drains env t starts t') :
    t.machine.deferred = starts.map Prod.snd ++ t'.machine.deferred := by
  induction h with
  | done => rfl
  | @next t t' r rest starts _ hstable hqueue _ ih =>
      have hkeep : _ = rest := (deferred_process (t := t.leaveWaiting rest) env r hstable).1
      rw [hqueue, List.map_cons, List.cons_append, ← ih, hkeep]

/-- **The loop ends**, and does what walking down the queue does. -/
theorem drains_replay (env : Surroundings) (queue : List Request) (t : Turn)
    (hqueue : t.machine.deferred = queue) (hrun : t.machine.stopped = false ∨ queue = []) :
    ∃ starts, Drains env t starts (t.replay env queue) := by
  induction queue generalizing t with
  | nil => exact ⟨[], .done (Or.inr (Or.inr hqueue))⟩
  | cons r rest ih =>
      have hrun : t.machine.stopped = false := hrun.resolve_right (by simp)
      by_cases hstable : t.machine.isStable = true
      · have hkeep := deferred_process (t := t.leaveWaiting rest) env r hstable
        obtain ⟨starts, h⟩ := ih ((t.leaveWaiting rest).process env (.request r)) hkeep.1
          (Or.inl (hkeep.2.trans hrun))
        refine ⟨(t.leaveWaiting rest, r) :: starts, .next hrun hstable hqueue ?_⟩
        have hsame := carryOut_eq_submit env (t.leaveWaiting rest) r hstable
        rw [process, ← hsame] at h ⊢
        rw [replay, if_pos hstable]
        exact h
      · rw [replay, if_neg hstable]
        exact ⟨[], .done (Or.inr (Or.inl (by simpa using hstable)))⟩

end Turn

/-! ## Requests are served in the order in which they came -/

/-- How a machine handles a message and the requests that wait: `joined` is what the message
adds to the queue, and `starts` are the turns at which a request that waited was started. -/
structure Machine.ServesInOrder (env : Surroundings) (msg : Message) (m : Machine)
    (joined : List Request) (starts : List (Turn × Request)) : Prop where
  /-- Nothing but the message itself joins the queue. -/
  joins : Joins m msg joined
  /-- It joins at the end, while it is worked on. -/
  processed : (Turn.process env { machine := m } msg).machine.deferred = m.deferred ++ joined
  /-- The loop ends, in what the machine does about the message and in nothing else. -/
  loop : ∀ starts' t', (Turn.process env { machine := m } msg).Drains env starts' t'
    ↔ starts' = starts ∧ t' = m.handle env msg
  /-- What waited, and what joined, was started in order or still waits. -/
  fifo : m.deferred ++ joined = starts.map Prod.snd ++ (m.handle env msg).machine.deferred
  /-- A request is started only while the machine is stable. -/
  stable : ∀ s ∈ starts, s.1.machine.isStable = true
  /-- A request that was started does not wait again. -/
  once : ∀ s ∈ starts, (s.1.process env (.request s.2)).machine.deferred = s.1.machine.deferred

/-- The message is worked on, and then the loop runs. -/
theorem drains_handle (env : Surroundings) (msg : Message) (hc : Consistent m)
    (hrun : m.stopped = false) (hmsg : msg ≠ .shutdown) :
    ∃ starts, (Turn.process env { machine := m } msg).Drains env starts (m.handle env msg) := by
  obtain ⟨es, m₁, heq, ho⟩ := Turn.process_outcome env ⟨m, []⟩ msg hc
  rw [Machine.handle, if_neg (by simp [hrun])]
  refine Turn.drains_replay env _ _ rfl (Or.inl ?_)
  rw [heq]
  exact (stopped_outcome hmsg ho).trans hrun

theorem serves_handle (env : Surroundings) (msg : Message) (hc : Consistent m)
    (hrun : m.stopped = false) (hmsg : msg ≠ .shutdown) :
    ∃ joined starts, m.ServesInOrder env msg joined starts := by
  obtain ⟨es, m₁, heq, ho⟩ := Turn.process_outcome env ⟨m, []⟩ msg hc
  obtain ⟨joined, hjoin, hj⟩ := joins_outcome hmsg ho
  obtain ⟨starts, hloop⟩ := drains_handle env msg hc hrun hmsg
  have hstable := Turn.drains_stable hloop
  have hprocessed : (Turn.process env ⟨m, []⟩ msg).machine.deferred = m.deferred ++ joined := by
    rw [heq]
    exact hjoin
  exact ⟨joined, starts,
    { joins := hj
      processed := hprocessed
      loop := fun starts' t' =>
        ⟨fun h => Turn.drains_unique h hloop, fun h => by rw [h.1, h.2]; exact hloop⟩
      fifo := hprocessed.symm.trans (Turn.drains_fifo hloop)
      stable := hstable
      once := fun s hs => (Turn.deferred_process env s.2 (hstable s hs)).1 }⟩

/-! ## What every turn keeps -/

/-- What is known of the queue between two messages. -/
structure Queued (m : Machine) : Prop where
  /-- Requests for one device take turns. -/
  alternates : Alternates m.deferred
  /-- Nothing waits while the machine is stable. -/
  patient : m.stopped = false → m.isStable = true → m.deferred = []
  /-- Nothing waits once the machine was told to stop. -/
  cleared : m.stopped = true → m.deferred = []

/-- Nothing waits after a message that tells the machine to stop. -/
theorem deferred_shutdown (env : Surroundings) (hc : Consistent m) (hrun : m.stopped = false) :
    (m.handle env .shutdown).machine.deferred = [] := by
  obtain ⟨es, m₁, rs, es', m₂, heq, ho, hr⟩ := handle_cases env .shutdown hc hrun
  obtain ⟨hstop, hempty, _⟩ := shutdown_outcome ho
  rw [heq]
  cases hr with
  | idle | busy => exact hempty
  | next hrun => simp [hstop] at hrun

/-- The requests that wait are left alone as long as the machine is not stable. -/
theorem replay_of_patient {t : Turn} (h : t.machine.isStable = true → t.machine.deferred = []) :
    t.replay env t.machine.deferred = t := by
  cases hqueue : t.machine.deferred with
  | nil => rfl
  | cons r rest =>
      rw [Turn.replay, if_neg]
      intro hstable
      rw [h hstable] at hqueue
      cases hqueue

theorem queued_handle (env : Surroundings) (msg : Message) (hc : Consistent m) (h : Queued m) :
    Queued (m.handle env msg).machine := by
  cases hrun : m.stopped with
  | true =>
      rw [handle_stopped msg hrun]
      exact h
  | false =>
      by_cases hmsg : msg = .shutdown
      · subst hmsg
        have hempty := deferred_shutdown env hc hrun
        exact ⟨by rw [hempty]; exact alternates_nil, fun _ _ => hempty, fun _ => hempty⟩
      · obtain ⟨joined, starts, hs⟩ := serves_handle env msg hc hrun hmsg
        have hall : Alternates (m.deferred ++ joined) := alternates_joined h.alternates hs.joins
        refine ⟨alternates_of_append (hs.fifo ▸ hall), fun _ => patient_handle msg hc hrun, ?_⟩
        intro hstop
        simp [running_handle hc hrun hmsg] at hstop

theorem queued_run (capacity : Nat) (timeout : Duration) (policy : Policy)
    (occasions : List (Surroundings × Message)) :
    Queued ((Machine.fresh capacity timeout policy).run occasions).machine :=
  machine_run_keeps capacity timeout policy occasions
    ⟨alternates_nil, fun _ _ => rfl, fun _ => rfl⟩ queued_handle

/-- **Requests that wait are served first come first served**, each once, and none is lost.
After every run, requests for one device that wait take turns, and none waits for a machine
that is at work and stable. -/
theorem waiting_requests_served_in_order (capacity : Nat) (timeout : Duration) (policy : Policy)
    (occasions : List (Surroundings × Message)) :
    let m := ((Machine.fresh capacity timeout policy).run occasions).machine
    (m.stopped = false → ∀ (env : Surroundings) (msg : Message), msg ≠ .shutdown →
        ∃ joined starts, m.ServesInOrder env msg joined starts)
      ∧ (∀ r ∈ m.deferred, r = .connect r.device ∨ r = .disconnect r.device)
      ∧ Alternates m.deferred
      ∧ (m.stopped = false → m.isStable = true → m.deferred = []) := by
  intro m
  have hc : Consistent m := consistent_run capacity timeout policy occasions
  have hq : Queued m := queued_run capacity timeout policy occasions
  refine ⟨fun hrun env msg hmsg => serves_handle env msg hc hrun hmsg, fun r _ => ?_,
    hq.alternates, hq.patient⟩
  cases r with
  | connect d => exact Or.inl rfl
  | disconnect d => exact Or.inr rfl

/-- A link that is being brought up is given up, and another is asked for. Once the first is
up it is taken down again, and the other waits on. -/
theorem waiting_requests_served_after_link :
    let env := ({} : ScriptedStack).surroundings ({} : Registry).facts
    let first := Address.of 0 0 0 0 0 1
    let second := Address.of 0 0 0 0 0 2
    let m := ((Machine.fresh 2 (.ofMillis 30000) ⟨false⟩).run
      [(env, .request (.connect first)), (env, .request (.disconnect first)),
        (env, .request (.connect second))]).machine
    m.stopped = false ∧ m.deferred = [.disconnect first, .connect second]
      ∧ ∃ joined starts, m.ServesInOrder env (.event (.link first .connected)) joined starts := by
  intro env first second m
  have hrun : m.stopped = false := by decide +kernel
  have hqueue : m.deferred = [.disconnect first, .connect second] := by decide +kernel
  exact ⟨hrun, hqueue, (waiting_requests_served_in_order 2 (.ofMillis 30000) ⟨false⟩ _).1 hrun env
    (.event (.link first .connected)) (by simp)⟩

end AudioLink
