import AudioLink.Proofs.Capacity

/-!
# When the stack is asked for something

A request to the stack is made in the middle of a handler: while a message is worked on, or
a request that has waited, and also where a timer that expired is taken for the report that
never came. What holds between two messages says little about such a moment, which is why
every request is kept with the roles as they stood when it was made.

`Machine.history` lists the handlers of a run one by one, each with the turn in which it
begins. Everything the run has done was done by one of them. Two rules hold of whatever they
ask for: a link is asked for only where nothing is in its way and a place is left for it, so
never before the member that makes room has gone; and a member is only asked to go while
nothing else is in flight, by a handler that then waits for it exactly if the stack agreed.
-/

namespace AudioLink

variable {env : Surroundings} {m m' : Machine} {d : Address} {es : List Effect} {msg : Message}

/-! ## The handlers of a run -/

/-- A handler at work: it finds a turn as others have left it, and works on a message. -/
structure Working where
  env : Surroundings
  start : Turn
  message : Message

namespace Working

/-- The turn when the handler has finished. -/
def finish (w : Working) : Turn :=
  w.start.process w.env w.message

/-- What the handler has done. -/
def done (w : Working) : List Effect :=
  w.finish.effects.drop w.start.effects.length

/-- A handler comes to one of the outcomes of its message. -/
theorem outcome {w : Working} (hc : Consistent w.start.machine) :
    Outcome w.env w.start.machine w.message w.done w.finish.machine
      ∧ w.finish.effects = w.start.effects ++ w.done := by
  obtain ⟨es, m', heq, ho⟩ := Turn.process_outcome w.env w.start w.message hc
  have hfinish : w.finish = w.start.goOn es m' := heq
  have hdone : w.done = es := by simp [done, hfinish, Turn.goOn]
  rw [hdone, hfinish]
  exact ⟨ho, rfl⟩

end Working

/-- The handlers that carry out the requests that have waited, while the machine is stable. -/
def Turn.workings (env : Surroundings) : List Request → Turn → List Working
  | [], _ => []
  | r :: rest, t =>
    if t.machine.isStable then
      let w : Working := ⟨env, t.change fun m => { m with deferred := rest }, .request r⟩
      w :: workings env rest w.finish
    else []

/-- The handlers at work about a message: on the message itself, and on what has waited. -/
def Machine.workings (env : Surroundings) (msg : Message) (m : Machine) : List Working :=
  if m.stopped then []
  else
    let w : Working := ⟨env, { machine := m }, msg⟩
    w :: w.finish.workings env w.finish.machine.deferred

/-- All handlers at work in a run, in order. -/
def Machine.history : List (Surroundings × Message) → Machine → List Working
  | [], _ => []
  | o :: rest, m => m.workings o.1 o.2 ++ history rest (m.handle o.1 o.2).machine

/-- A run goes on from any turn as it would from the machine alone. -/
theorem effects_foldl_handle (occasions : List (Surroundings × Message)) (t : Turn) :
    (occasions.foldl (fun t o => t.goOn (t.machine.handle o.1 o.2).effects
        (t.machine.handle o.1 o.2).machine) t).effects
      = t.effects ++ (t.machine.run occasions).effects := by
  induction occasions generalizing t with
  | nil => exact (List.append_nil _).symm
  | cons o rest ih =>
      have hrun : (t.machine.run (o :: rest)).effects
          = (t.machine.handle o.1 o.2).effects
            ++ ((t.machine.handle o.1 o.2).machine.run rest).effects := ih _
      rw [hrun, ← List.append_assoc]
      exact ih _

theorem effects_run_cons (o : Surroundings × Message) (rest : List (Surroundings × Message))
    (m : Machine) :
    (m.run (o :: rest)).effects
      = (m.handle o.1 o.2).effects ++ ((m.handle o.1 o.2).machine.run rest).effects :=
  effects_foldl_handle rest _

section History

variable {I : Machine → Prop}
  (hqueue : ∀ {m} rest, I m → I { m with deferred := rest })
  (hstep : ∀ {env m msg es m'}, Consistent m → I m → Outcome env m msg es m' → I m')

include hqueue hstep

/-- What has waited is carried out by handlers that each begin in order. -/
theorem replay_workings (env : Surroundings) (queue : List Request) {t : Turn}
    (hc : Consistent t.machine) (h : I t.machine) :
    (t.replay env queue).effects = t.effects ++ (t.workings env queue).flatMap Working.done
      ∧ ∀ w ∈ t.workings env queue, Consistent w.start.machine ∧ I w.start.machine := by
  induction queue generalizing t with
  | nil => simp [Turn.replay, Turn.workings]
  | cons r rest ih =>
      by_cases hstable : t.machine.isStable = true
      · -- the request has left the queue when its handler begins
        let w : Working := ⟨env, t.change fun m => { m with deferred := rest }, .request r⟩
        have hcut : Consistent w.start.machine := consistent_deferred rest hc
        have hbegin : I w.start.machine := hqueue rest h
        obtain ⟨ho, heffects⟩ := w.outcome hcut
        obtain ⟨hlog, hall⟩ := ih (consistent_outcome hcut ho) (hstep hcut hbegin ho)
        have hsame : w.start.carryOut env r = w.finish :=
          Turn.carryOut_eq_submit env w.start r hstable
        have hstart : w.start.effects = t.effects := rfl
        rw [Turn.replay, if_pos hstable, Turn.workings, if_pos hstable]
        refine ⟨?_, List.forall_mem_cons.mpr ⟨⟨hcut, hbegin⟩, hall⟩⟩
        rw [List.flatMap_cons, ← List.append_assoc, ← hstart, ← heffects, ← hlog]
        exact congrArg (fun t => (Turn.replay env rest t).effects) hsame
      · rw [Turn.replay, if_neg hstable, Turn.workings, if_neg hstable]
        simp

theorem handle_workings (env : Surroundings) (msg : Message) (hc : Consistent m) (h : I m) :
    (m.handle env msg).effects = (m.workings env msg).flatMap Working.done
      ∧ ∀ w ∈ m.workings env msg, Consistent w.start.machine ∧ I w.start.machine := by
  unfold Machine.handle Machine.workings
  split
  · simp
  · let w : Working := ⟨env, { machine := m }, msg⟩
    obtain ⟨ho, heffects⟩ := w.outcome hc
    obtain ⟨hlog, hall⟩ := replay_workings hqueue hstep env w.finish.machine.deferred
      (consistent_outcome hc ho) (hstep hc h ho)
    refine ⟨?_, List.forall_mem_cons.mpr ⟨⟨hc, h⟩, hall⟩⟩
    rw [List.flatMap_cons]
    exact hlog.trans (congrArg (· ++ _) heffects)

/-- **All that a run has done was done by its handlers**, and each of them began in order. -/
theorem run_history (occasions : List (Surroundings × Message)) (hc : Consistent m) (h : I m) :
    (m.run occasions).effects = (m.history occasions).flatMap Working.done
      ∧ ∀ w ∈ m.history occasions, Consistent w.start.machine ∧ I w.start.machine := by
  induction occasions generalizing m with
  | nil => exact ⟨rfl, by simp [Machine.history]⟩
  | cons o rest ih =>
      have hkeep := handle_keeps (I := fun _ m => I m) hqueue (fun hc _ => hstep hc) o.1 o.2 [] hc h
      obtain ⟨hlog, hall⟩ := handle_workings hqueue hstep o.1 o.2 hc h
      obtain ⟨hlog', hall'⟩ := ih hkeep.1 hkeep.2
      refine ⟨?_, List.forall_mem_append.mpr ⟨hall, hall'⟩⟩
      rw [effects_run_cons, Machine.history, List.flatMap_append, hlog, hlog']

end History

/-! ## What a handler asks for -/

/-- A link to the device may be asked for, given who holds which role. -/
structure Roles.MayLink (capacity : Nat) (d : Address) (r : Roles) : Prop where
  /-- The device is no member and brings up no link itself. -/
  stranger : d ∉ r.members ∧ r.incoming ≠ some d
  /-- Nobody is on the way out, be it the device or another. -/
  settled : r.leaving = none
  /-- No link has been asked for. One may wait to be, and then it is this one, and the member
  that it has waited for has gone. -/
  unasked : ∀ o, r.outgoing = some o →
    o.device = d ∧ ∃ v, o.stage = .awaitingEviction v ∧ v ∉ r.members
  /-- A place is left beside the members and the incoming link. -/
  room : r.members.length + r.incoming.toList.length + 1 ≤ capacity

/-- A stable machine with a place left may ask for a link to a stranger. -/
theorem mayLink_stable (hstable : m.isStable = true) (hd : d ∉ m.members)
    (hroom : m.hasRoom = true) : m.MayLink m.capacity d := by
  obtain ⟨hout, hin, hleave⟩ := Roles.isStable_iff.mp hstable
  have hroom : m.reserved < m.capacity := of_decide_eq_true hroom
  refine ⟨⟨hd, by simp [hin]⟩, hleave, by simp [hout], ?_⟩
  unfold Roles.reserved at hroom
  omega

/-- Once a member has gone, the link that has waited for its place may be asked for. -/
theorem mayLink_parted {v : Address} (hf : Fits m) (hc : Consistent m)
    (hout : m.outgoing = some ⟨d, .awaitingEviction v⟩) :
    ((m.endParting v).expel v).MayLink m.capacity d := by
  obtain ⟨hd, hin⟩ := hc.outgoing_fresh (Roles.outgoingDevice_eq hout)
  have hv : v ∈ m.members := hc.leaving_member (hc.awaiting hout)
  have hgone : v ∉ ((m.endParting v).expel v).members := by simp [Machine.mem_expel]
  refine ⟨⟨fun h => hd (Machine.mem_expel.mp h).1, hin⟩, rfl, ?_, ?_⟩
  · intro o ho
    obtain rfl : o = ⟨d, .awaitingEviction v⟩ := Option.some.inj (Eq.trans ho.symm hout)
    exact ⟨rfl, v, rfl, hgone⟩
  · have hlt : ((m.endParting v).expel v).members.length < m.members.length :=
      length_expel_lt (m := m.endParting v) hv
    have hmembers := hf.members
    show _ + m.incoming.toList.length + 1 ≤ m.capacity
    -- the two that shared a place do so no more
    rcases hf.reserved with hres | ⟨_, hnone⟩
    · unfold Roles.reserved at hres
      omega
    · simp only [hnone, Option.toList_none, List.length_nil]
      omega

/-- A member is asked to go by a handler of `msg`, which leaves the machine with the roles
`after`. -/
structure Roles.AsksMember (d : Address) (accepted : Bool) (msg : Message) (r after : Roles) :
    Prop where
  /-- Nothing is in flight. -/
  stable : r.outgoing = none ∧ r.incoming = none ∧ r.leaving = none
  /-- The host has asked for something. -/
  requested : ∃ q, msg = .request q
  /-- The member is on its way out afterwards exactly if the stack agreed. -/
  waits : after.leaving = some d ↔ accepted = true

/-- A request to the stack is made in its time. -/
def Request.IsDue (capacity : Nat) (accepted : Bool) (msg : Message) (r after : Roles) :
    Request → Prop
  | .connect d => r.MayLink capacity d
  | .disconnect d => d ∉ r.members ∨ r.AsksMember d accepted msg after

section Due

variable {r : Request} {a : Bool} {roles : Roles}

/-- The link of a device that is no member may be taken down at any time. -/
theorem due_of_stranger {capacity : Nat} {b : Bool} {s after : Roles} (hd : d ∉ s.members)
    (hcall : Effect.request r a roles = .request (.disconnect d) b s) :
    r.IsDue capacity a msg roles after := by
  cases hcall
  exact Or.inl hd

theorem due_of_parted {v : Address} (hf : Fits m) (hc : Consistent m) (hp : Parted env m v es m')
    (hcall : .request r a roles ∈ es) : r.IsDue m.capacity a msg roles m'.toRoles := by
  cases hp with
  | vacated => simpa using Machine.notice_of_mem_farewell hcall
  | requested hout | refused hout =>
      rcases List.mem_append.mp hcall with hcall | hcall
      · simpa using Machine.notice_of_mem_farewell hcall
      · simp at hcall
        obtain ⟨rfl, -, rfl⟩ := hcall
        exact mayLink_parted hf hc hout

theorem due_of_dropped (hc : Consistent m) {m₁ : Machine} {es' : List Effect}
    (hout : OutgoingDropped env m es m₁) (hin : IncomingDropped env m₁ es' m')
    (hcall : .request r a roles ∈ es ++ es') : r.IsDue m.capacity a msg roles m'.stop.toRoles := by
  rcases List.mem_append.mp hcall with hcall | hcall
  · cases hout with
    | absent | awaiting => simp at hcall
    | @requested d _ hout =>
        have hd : d ∉ m.members := (hc.outgoing_fresh (Roles.outgoingDevice_eq hout)).1
        exact due_of_stranger (s := { m.toRoles with outgoing := none }) hd (by simpa using hcall)
  · have hsame : m₁.members = m.members ∧ m₁.incoming = m.incoming := by
      cases hout <;> exact ⟨rfl, rfl⟩
    cases hin with
    | absent => simp at hcall
    | @present d _ hin =>
        have hd : d ∉ m₁.members := hsame.1 ▸ hc.incoming_fresh (hsame.2.symm.trans hin)
        exact due_of_stranger (s := { m₁.toRoles with incoming := none }) hd (by simpa using hcall)

/-- **Whatever a handler asks of the stack, it asks in time.** -/
theorem due_outcome (hf : Fits m) (hc : Consistent m) (ho : Outcome env m msg es m')
    (hcall : .request r a roles ∈ es) : r.IsDue m.capacity a msg roles m'.toRoles := by
  cases ho with
  | linkRefused hstable hd hroom | linkRequested hstable hd hroom =>
      simp at hcall
      obtain ⟨rfl, -, rfl⟩ := hcall
      exact mayLink_stable hstable hd hroom
  | evictionRefused hstable | partingRefused hstable =>
      simp at hcall
      obtain ⟨rfl, rfl, rfl⟩ := hcall
      have hroles := Roles.isStable_iff.mp hstable
      exact Or.inr ⟨hroles, ⟨_, rfl⟩, by simp [hroles.2.2]⟩
  | evictionBegun hstable | partingBegun hstable =>
      rcases List.mem_append.mp hcall with hcall | hcall
      · simp at hcall
        obtain ⟨rfl, rfl, rfl⟩ := hcall
        exact Or.inr ⟨Roles.isStable_iff.mp hstable, ⟨_, rfl⟩, iff_of_true rfl rfl⟩
      · simpa using Machine.notice_of_mem_hush hcall
  | parted _ hp | partingExpired _ _ hp => exact due_of_parted hf hc hp hcall
  | stopped hout hin => exact due_of_dropped hc hout hin hcall
  -- a link that is unwelcome, or that was given up, is no member's
  | comingRejected hd | upRejected hd => exact due_of_stranger hd (by simpa using hcall)
  | linkedEarly hout =>
      exact due_of_stranger (hc.outgoing_fresh hout).1 (by simpa using hcall)
  | linkExpired _ hout =>
      have hfresh := hc.outgoing_fresh (Roles.outgoingDevice_eq hout)
      exact due_of_stranger hfresh.1 (by simpa using hcall)
  | incomingRefused hin | incomingExpired _ hin =>
      exact due_of_stranger (hc.incoming_fresh hin) (by simpa using hcall)
  | dropped => simpa using Machine.notice_of_mem_farewell hcall
  | silenced => simpa using Machine.notice_of_mem_hush hcall
  | evictionExpired =>
      rcases List.mem_cons.mp hcall with hcall | hcall
      · simp at hcall
      · simpa using Machine.notice_of_mem_farewell hcall
  | _ => simp at hcall

end Due

/-- **The stack is asked in time, at every call of every run.** Whatever the run has done was
done by its handlers. At the moment at which one of them asks for a link, nothing is in its
way and a place is left for it; where it needed an eviction, the victim is a member no more.
At the moment at which one asks for a link to be taken down, the device is no member, or
nothing is in flight; then the handler is one of a request, and in the end it waits for the
member to go exactly if the stack has agreed. -/
theorem stack_is_asked_in_time (capacity : Nat) (timeout : Duration) (policy : Policy)
    (occasions : List (Surroundings × Message)) :
    let start := Machine.fresh capacity timeout policy
    (start.run occasions).effects = (start.history occasions).flatMap Working.done
      ∧ ∀ w ∈ start.history occasions, ∀ (d : Address) (accepted : Bool) (roles : Roles),
          (.request (.connect d) accepted roles ∈ w.done → roles.MayLink capacity d)
            ∧ (.request (.disconnect d) accepted roles ∈ w.done →
                d ∉ roles.members
                  ∨ roles.AsksMember d accepted w.message w.finish.machine.toRoles) := by
  intro start
  obtain ⟨hlog, hall⟩ := run_history (I := fun m => Fits m ∧ m.capacity = capacity)
    (fun _ h => ⟨{ h.1 with }, h.2⟩)
    (fun hc h ho => ⟨fits_outcome h.1 hc ho, (settings_outcome ho).1.trans h.2⟩)
    occasions (consistent_fresh capacity timeout policy)
    ⟨fits_of_reserved (Nat.zero_le _), rfl⟩
  refine ⟨hlog, fun w hw d accepted roles => ?_⟩
  obtain ⟨hc, hf, hcap⟩ := hall w hw
  obtain ⟨ho, -⟩ := w.outcome hc
  rw [← hcap]
  exact ⟨fun hcall => due_outcome hf hc ho hcall, fun hcall => due_outcome hf hc ho hcall⟩

end AudioLink
