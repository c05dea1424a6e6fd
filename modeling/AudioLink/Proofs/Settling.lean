import Mathlib.Algebra.Order.BigOperators.Group.List
import Mathlib.Algebra.Order.Ring.Nat
import AudioLink.Bench
import AudioLink.Proofs.Capacity
import AudioLink.Proofs.Expiry

/-!
# The bench comes to rest

Working off the mailbox of a bench and letting its timers expire are repetitions with a bound. A
bound that is too low would show as a message left over or as a timer still armed, so each has
to be at least what there is to do.

For the mailbox that is a weight. A message weighs as much as the messages that may come of it,
itself counted, and weight is given as well to the requests that wait in the machine and to the
link that it has yet to ask for. A message that is dealt with is gone, and what the stack replies
weighs less. For the timers it is the burden of the machine: an expiry takes from it, and the
confirmations that follow add nothing.
-/

namespace AudioLink

variable {env : Surroundings} {m m' : Machine} {d : Address} {es : List Effect} {msg : Message}

/-! ## Weights -/

/-- How many messages may have to be dealt with for the sake of one, itself counted. A request
may cost an eviction and a link that comes up too late to be kept. -/
def Message.weight : Message → Nat
  | request _ => 4
  | shutdown => 3
  | timeout .. => 2
  | event (.link _ .connecting) | event (.link _ .connected) => 2
  | event (.link _ .disconnecting) | event (.link _ .disconnected) => 1
  | event (.stream ..) | event (.format ..) | event (.permission _) => 1

theorem Message.weight_pos (msg : Message) : 0 < msg.weight := by
  unfold weight
  split <;> omega

theorem Message.weight_le (msg : Message) : msg.weight ≤ 4 := by
  unfold weight
  split <;> omega

/-- What the messages of a mailbox weigh. -/
def weigh (mail : List Message) : Nat :=
  (mail.map Message.weight).sum

@[simp] theorem weigh_nil : weigh [] = 0 := rfl

@[simp] theorem weigh_cons (msg : Message) (mail : List Message) :
    weigh (msg :: mail) = msg.weight + weigh mail :=
  List.sum_cons

@[simp] theorem weigh_append (mail mail' : List Message) :
    weigh (mail ++ mail') = weigh mail + weigh mail' := by
  simp [weigh]

theorem weigh_le_of_sublist {mail mail' : List Message} (h : mail.Sublist mail') :
    weigh mail ≤ weigh mail' :=
  (h.map Message.weight).sum_le_sum fun _ _ => Nat.zero_le _

theorem weigh_le (mail : List Message) : weigh mail ≤ 4 * mail.length := by
  induction mail with
  | nil => exact Nat.le_refl _
  | cons msg rest ih =>
      have hfirst := msg.weight_le
      rw [weigh_cons, List.length_cons]
      omega

/-- What the stack reports if it confirms all that it has accepted. -/
def replies (es : List Effect) : List Message :=
  (es.filterMap Effect.accepted?).map (.event ·.confirmation)

/-- What some effects cost: the weight of what the stack may reply to them. -/
def cost (es : List Effect) : Nat :=
  weigh (replies es)

@[simp] theorem cost_nil : cost [] = 0 := rfl

@[simp] theorem cost_append (es es' : List Effect) : cost (es ++ es') = cost es + cost es' := by
  simp [cost, replies]

@[simp] theorem cost_hush (d : Address) (m : Machine) : cost (m.hush d) = 0 := by
  simp [cost, replies]

@[simp] theorem cost_farewell (d : Address) (old : LinkState) (m : Machine) :
    cost (m.farewell d old) = 0 := by
  simp [cost, replies]

/-- Whoever is asked to take a link down, one message says that it is done. -/
theorem cost_disconnect_le (d : Address) (accepted : Bool) (roles : Roles) (es : List Effect) :
    cost (.request (.disconnect d) accepted roles :: es) ≤ cost es + 1 := by
  cases accepted with
  | false => exact Nat.le_succ _
  | true =>
      show 1 + cost es ≤ cost es + 1
      omega

/-! ## What a machine will ask for by itself -/

/-- What a machine may still ask for without any new message: the link that waits for a member
to go, and what waits in the queue. -/
def Machine.pull (m : Machine) : Nat :=
  3 * m.deferred.length + 2 * m.victim.toList.length

theorem Machine.pull_le (m : Machine) : m.pull ≤ 3 * m.deferred.length + 2 := by
  have hvictim : m.victim.toList.length ≤ 1 := Option.length_toList_le
  unfold pull
  omega

/-- What waits is still to be asked for, whatever becomes of the link. -/
theorem Machine.deferred_le_pull (m : Machine) : 3 * m.deferred.length ≤ m.pull :=
  Nat.le_add_right _ _

/-- The device that waited for the member is asked for, and waits no more. -/
theorem cost_parted (hp : Parted env m d es m') : cost es + m'.pull ≤ m.pull := by
  have hqueue := m.deferred_le_pull
  cases hp with
  | vacated =>
      rw [cost_farewell]
      show 0 + m.pull ≤ m.pull
      omega
  | @requested e hout =>
      have hpull : m.pull = 3 * m.deferred.length + 2 := by
        rw [Machine.pull, Roles.victim, hout]
        rfl
      rw [cost_append, cost_farewell]
      show 0 + 2 + 3 * m.deferred.length ≤ m.pull
      omega
  | refused =>
      rw [cost_append, cost_farewell]
      show 0 + 0 + 3 * m.deferred.length ≤ m.pull
      omega

theorem cost_outgoingDropped (hout : OutgoingDropped env m es m') :
    cost es ≤ 1 ∧ m'.pull ≤ m.pull := by
  cases hout with
  | absent => exact ⟨Nat.zero_le _, Nat.le_refl _⟩
  | awaiting => exact ⟨Nat.zero_le _, m.deferred_le_pull⟩
  | requested => exact ⟨cost_disconnect_le _ _ _ _, m.deferred_le_pull⟩

theorem cost_incomingDropped (hin : IncomingDropped env m es m') :
    cost es ≤ 1 ∧ m'.pull = m.pull := by
  cases hin with
  | absent => exact ⟨Nat.zero_le _, rfl⟩
  | present => exact ⟨cost_disconnect_le _ _ _ _, rfl⟩

/-- What the stack may reply to an outcome, and what the machine asks for by itself after it,
weigh less than the message and what the machine asked for before. -/
theorem cost_outcome (ho : Outcome env m msg es m') : cost es + m'.pull < m.pull + msg.weight := by
  have hpos := msg.weight_pos
  have hqueue := m.deferred_le_pull
  cases ho with
  -- nothing is asked for, and nothing is to be asked for that was not before
  | nothing | linkRefused | noVictim | evictionRefused | partingRefused | incomingFailed
  | incomingBegun | incomingLinked | stayed | admitted | played | formatSet | answered
  | nothingExpired =>
      show 0 + m.pull < _
      omega
  | dropped =>
      rw [cost_farewell]
      show 0 + m.pull < _
      omega
  | silenced =>
      rw [cost_hush]
      show 0 + m.pull < _
      omega
  -- the link is given up, or is up: it is not asked for any more
  | withdrawn | linkFailed | linked | stayedAgainst =>
      show 0 + 3 * m.deferred.length < _
      omega
  | evictionExpired =>
      show cost (Machine.farewell _ _ _) + 3 * m.deferred.length < _
      rw [cost_farewell]
      omega
  -- a link is taken down again that nobody wants
  | comingRejected | incomingRefused | upRejected | incomingExpired =>
      refine Nat.lt_of_le_of_lt (Nat.add_le_add_right (cost_disconnect_le _ _ _ _) _) ?_
      show 0 + 1 + m.pull < m.pull + 2
      omega
  | linkedEarly | linkExpired =>
      refine Nat.lt_of_le_of_lt (Nat.add_le_add_right (cost_disconnect_le _ _ _ _) _) ?_
      show 0 + 1 + 3 * m.deferred.length < m.pull + 2
      omega
  | parted _ hp | partingExpired _ _ hp =>
      have hparted := cost_parted hp
      omega
  -- what a request is worth
  | connectDeferred | disconnectDeferred =>
      show 0 + (3 * (m.deferred ++ [_]).length + 2 * m.victim.toList.length)
        < 3 * m.deferred.length + 2 * m.victim.toList.length + 4
      rw [List.length_append, List.length_singleton]
      omega
  | linkRequested =>
      show 2 + 3 * m.deferred.length < m.pull + 4
      omega
  | evictionBegun =>
      rw [cost_append, cost_hush]
      show 1 + 0 + (3 * m.deferred.length + 2) < m.pull + 4
      omega
  | partingBegun =>
      rw [cost_append, cost_hush]
      show 1 + 0 + m.pull < m.pull + 4
      omega
  | @stopped es es' m₁ m₂ hout hin =>
      obtain ⟨hasked, hpull⟩ := cost_outgoingDropped hout
      obtain ⟨hasked', hpull'⟩ := cost_incomingDropped hin
      have hend : m₂.stop.pull ≤ m₂.pull := by
        show 0 + 2 * m₂.victim.toList.length ≤ 3 * m₂.deferred.length + _
        omega
      rw [cost_append]
      show _ < m.pull + 3
      omega

/-- What waited is paid for by what it weighed in the queue. -/
theorem cost_replay {rs : List Request} (hr : Replay env m rs es m') :
    cost es + m'.pull ≤ m.pull := by
  induction hr with
  | idle | busy =>
      rw [cost_nil]
      omega
  | @next m m₁ m₂ r rest rs es es' _ _ hqueue ho _ ih =>
      have hfirst : _ < 3 * rest.length + 2 * m.victim.toList.length + 4 := cost_outcome ho
      unfold Machine.pull at hfirst ih ⊢
      rw [cost_append, hqueue, List.length_cons]
      omega

/-- **What comes of a message weighs less than the message.** -/
theorem cost_handle (env : Surroundings) (msg : Message) (hc : Consistent m) :
    cost (m.handle env msg).effects + (m.handle env msg).machine.pull
      < m.pull + msg.weight := by
  cases hrun : m.stopped with
  | true =>
      have hpos := msg.weight_pos
      rw [handle_stopped msg hrun]
      show 0 + m.pull < _
      omega
  | false =>
      obtain ⟨es, m₁, rs, es', m₂, heq, ho, hr⟩ := handle_cases env msg hc hrun
      have houtcome := cost_outcome ho
      have hreplay := cost_replay hr
      rw [heq]
      show cost (es ++ es') + m₂.pull < _
      rw [cost_append]
      omega

/-! ## What a confirmation adds to the burden -/

/-- Where a role is left alone or given up, no more is in flight than before. -/
theorem pendingCount_le_of_roles {r r' : Roles}
    (hout : r'.outgoing = r.outgoing ∨ r'.outgoing = none)
    (hin : r'.incoming = r.incoming ∨ r'.incoming = none)
    (hleave : r'.leaving = r.leaving ∨ r'.leaving = none) : r'.pendingCount ≤ r.pendingCount := by
  have hle : ∀ {α : Type} {o o' : Option α}, o' = o ∨ o' = none →
      o'.toList.length ≤ o.toList.length := by
    intro α o o' h
    rcases h with rfl | rfl
    · exact Nat.le_refl _
    · exact Nat.zero_le _
  have houts := hle hout
  have hins := hle hin
  have hleaves := hle hleave
  unfold Roles.pendingCount
  omega

/-- A confirmation, expected or not, begins no operation. -/
theorem pendingCount_confirmation {r : Request} (ho : Outcome env m (.event r.confirmation) es m') :
    m'.pendingCount ≤ m.pendingCount ∧ m'.deferred = m.deferred := by
  cases r with
  | connect d =>
      have ho : Outcome env m (.event (.link d .connected)) es m' := ho
      cases ho with
      | nothing | incomingRefused | admitted | upRejected => exact ⟨Nat.le_refl _, rfl⟩
      | linked | linkedEarly =>
          exact ⟨pendingCount_le_of_roles (.inr rfl) (.inl rfl) (.inl rfl), rfl⟩
      | incomingLinked => exact ⟨pendingCount_le_of_roles (.inl rfl) (.inr rfl) (.inl rfl), rfl⟩
      | stayed => exact ⟨pendingCount_le_of_roles (.inl rfl) (.inl rfl) (.inr rfl), rfl⟩
      | stayedAgainst => exact ⟨pendingCount_le_of_roles (.inr rfl) (.inl rfl) (.inr rfl), rfl⟩
  | disconnect d =>
      have ho : Outcome env m (.event (.link d .disconnected)) es m' := ho
      cases ho with
      | nothing | dropped => exact ⟨Nat.le_refl _, rfl⟩
      | parted hleave hp =>
          obtain ⟨hcount, hqueue⟩ := pendingCount_parted hleave hp
          exact ⟨Nat.le_of_lt hcount, hqueue⟩
      | linkFailed => exact ⟨pendingCount_le_of_roles (.inr rfl) (.inl rfl) (.inl rfl), rfl⟩
      | incomingFailed => exact ⟨pendingCount_le_of_roles (.inl rfl) (.inr rfl) (.inl rfl), rfl⟩

theorem burden_confirmation (env : Surroundings) (r : Request) (hc : Consistent m) :
    (m.handle env (.event r.confirmation)).machine.burden ≤ m.burden := by
  cases hrun : m.stopped with
  | true => rw [handle_stopped _ hrun]
  | false =>
      obtain ⟨es, m₁, ho, hturn⟩ := burden_handle env (.event r.confirmation) hc hrun
      obtain ⟨hcount, hqueue⟩ := pendingCount_confirmation ho
      refine Nat.le_trans hturn ?_
      unfold Machine.burden
      rw [hqueue]
      omega

/-- A machine without a burden has no timer. -/
theorem armed_of_unburdened (h : Covered m) (hnone : m.burden = 0) : m.timers.armed = ∅ := by
  unfold Machine.burden Roles.pendingCount at hnone
  refine h.armed_of_stable (Roles.isStable_iff.mpr ⟨?_, ?_, ?_⟩)
  · exact Option.length_toList_eq_zero_iff.mp (by omega)
  · exact Option.length_toList_eq_zero_iff.mp (by omega)
  · exact Option.length_toList_eq_zero_iff.mp (by omega)

namespace Bench

variable {b b' : Bench} {rest : List Message} {bound : Nat}

/-! ## One message -/

/-- The machine on the bench. -/
def machine (b : Bench) : Machine :=
  b.controller.publisher.machine

/-- What surrounds the machine on the bench. -/
def surroundings (b : Bench) : Surroundings :=
  b.stack.surroundings b.controller.registry.facts

theorem deal?_nil (hmail : b.controller.mailbox = []) : b.deal? = none := by
  rw [deal?, Controller.deal?, hmail]
  rfl

/-- **What dealing with a message comes to.** The machine has handled it, and left in the mailbox
is at most what stood behind it and what the stack replied. -/
theorem deal?_cons (hmail : b.controller.mailbox = msg :: rest) :
    ∃ b', b.deal? = some b' ∧ b'.machine = (b.machine.handle b.surroundings msg).machine
      ∧ b'.controller.mailbox.Sublist
          (rest ++ replies (b.machine.handle b.surroundings msg).effects) := by
  let t := b.machine.handle b.surroundings msg
  let p := (b.controller.publisher.step b.surroundings msg).1
  have hstep : b.controller.deal? b.surroundings
      = some ({ b.controller with publisher := p, mailbox := if p.isRunning then rest else [] },
        t) := by
    rw [Controller.deal?, hmail]
    rfl
  have hdeal : b.deal? = some
      { controller := { b.controller with
          publisher := p
          mailbox := if p.isRunning then rest ++ (b.stack.confirmations t).map .event else [] }
        stack := b.stack.record t } := by
    show (b.controller.deal? b.surroundings).map _ = _
    rw [hstep]
    cases hrun : p.isRunning <;> simp [hrun]
  refine ⟨_, hdeal, rfl, ?_⟩
  cases hrun : p.isRunning with
  | false => exact List.nil_sublist _
  | true =>
      refine List.Sublist.append (List.Sublist.refl rest) ?_
      unfold ScriptedStack.confirmations
      split
      · rw [List.map_map]
        exact List.Sublist.refl _
      · exact List.nil_sublist _

theorem deal?_cases (hdeal : b.deal? = some b') :
    ∃ msg rest, b.controller.mailbox = msg :: rest
      ∧ b'.machine = (b.machine.handle b.surroundings msg).machine
      ∧ b'.controller.mailbox.Sublist
          (rest ++ replies (b.machine.handle b.surroundings msg).effects) := by
  cases hmail : b.controller.mailbox with
  | nil =>
      rw [deal?_nil hmail] at hdeal
      cases hdeal
  | cons msg rest =>
      obtain ⟨b₁, hdeal₁, hmachine, hleft⟩ := deal?_cons hmail
      obtain rfl := Option.some.inj (hdeal.symm.trans hdeal₁)
      exact ⟨msg, rest, rfl, hmachine, hleft⟩

theorem mailbox_of_deal?_eq_none (hdeal : b.deal? = none) : b.controller.mailbox = [] := by
  cases hmail : b.controller.mailbox with
  | nil => rfl
  | cons msg rest =>
      obtain ⟨b', hdeal', -⟩ := deal?_cons hmail
      rw [hdeal] at hdeal'
      cases hdeal'

/-! ## The mailbox -/

/-- What is known of a bench at any time. -/
structure Sound (b : Bench) : Prop where
  consistent : Consistent b.machine
  covered : Covered b.machine
  queued : Queued b.machine

theorem sound_congr (h : b.Sound) (hmachine : b'.machine = b.machine) : b'.Sound where
  consistent := hmachine ▸ h.consistent
  covered := hmachine ▸ h.covered
  queued := hmachine ▸ h.queued

theorem sound_deal (h : b.Sound) (hdeal : b.deal? = some b') : b'.Sound := by
  obtain ⟨msg, rest, -, hmachine, -⟩ := deal?_cases hdeal
  exact
    { consistent := hmachine ▸ consistent_handle msg h.consistent
      covered := hmachine ▸ covered_handle _ msg h.consistent h.covered
      queued := hmachine ▸ queued_handle _ msg h.consistent h.queued }

/-- What is to be dealt with on a bench, at most. -/
def potential (b : Bench) : Nat :=
  weigh b.controller.mailbox + b.machine.pull

/-- **Every message that is dealt with takes from what there is to do.** -/
theorem potential_deal (h : b.Sound) (hdeal : b.deal? = some b') :
    b'.potential < b.potential := by
  obtain ⟨msg, rest, hmail, hmachine, hleft⟩ := deal?_cases hdeal
  have hcost := cost_handle b.surroundings msg h.consistent
  have hweight := weigh_le_of_sublist hleft
  unfold potential cost at *
  rw [hmachine, hmail, weigh_cons]
  rw [weigh_append] at hweight
  omega

theorem potential_le (b : Bench) :
    b.potential ≤ 4 * (b.controller.mailbox.length + b.waiting) + 8 := by
  have hmail := weigh_le b.controller.mailbox
  have hpull : b.machine.pull ≤ 3 * b.waiting + 2 := b.machine.pull_le
  unfold potential
  omega

/-- Where there is nothing to do, the mailbox is empty. -/
theorem mailbox_of_potential (hnone : b.potential = 0) : b.controller.mailbox = [] := by
  cases hmail : b.controller.mailbox with
  | nil => rfl
  | cons msg rest =>
      have hpos := msg.weight_pos
      unfold potential at hnone
      rw [hmail, weigh_cons] at hnone
      omega

/-- What every deal keeps, any number of deals keep. -/
theorem dealUpTo_keeps {P : Bench → Prop}
    (hstep : ∀ {b b' : Bench}, P b → b.deal? = some b' → P b') (bound : Nat) (h : P b) :
    P (b.dealUpTo bound) := by
  induction bound generalizing b with
  | zero => exact h
  | succ bound ih =>
      rw [dealUpTo]
      cases hdeal : b.deal? with
      | none => exact h
      | some b' => exact ih (hstep h hdeal)

theorem mailbox_dealUpTo (h : b.Sound) (hbound : b.potential ≤ bound) :
    (b.dealUpTo bound).controller.mailbox = [] := by
  induction bound generalizing b with
  | zero => exact mailbox_of_potential (Nat.le_zero.mp hbound)
  | succ bound ih =>
      rw [dealUpTo]
      cases hdeal : b.deal? with
      | none => exact mailbox_of_deal?_eq_none hdeal
      | some b' =>
          have hless := potential_deal h hdeal
          exact ih (sound_deal h hdeal) (by omega)

/-- Working off begins with the message that has waited longest. -/
theorem settle_of_deal (hdeal : b.deal? = some b') : ∃ bound, b.settle = b'.dealUpTo bound := by
  refine ⟨4 * (b.controller.mailbox.length + b.waiting) + 7, ?_⟩
  show dealUpTo (4 * (b.controller.mailbox.length + b.waiting) + 7 + 1) b = _
  rw [dealUpTo, hdeal]

theorem sound_settle (h : b.Sound) : b.settle.Sound :=
  dealUpTo_keeps sound_deal _ h

/-- **The mailbox is empty once it was worked off.** -/
theorem mailbox_settle (h : b.Sound) : b.settle.controller.mailbox = [] :=
  mailbox_dealUpTo h b.potential_le

/-! ## The timers -/

/-- Nothing but confirmations is left to deal with, and the burden stays within a bound. -/
structure Unburdening (bound : Nat) (b : Bench) : Prop extends Sound b where
  confirmed : ∀ msg ∈ b.controller.mailbox, ∃ r : Request, msg = .event r.confirmation
  burden : b.machine.burden ≤ bound

theorem confirmed_of_sublist {mail : List Message} (h : mail.Sublist (rest ++ replies es))
    (hrest : ∀ msg ∈ rest, ∃ r : Request, msg = .event r.confirmation) :
    ∀ msg ∈ mail, ∃ r : Request, msg = .event r.confirmation := by
  intro msg hmsg
  rcases List.mem_append.mp (h.subset hmsg) with hmsg | hmsg
  · exact hrest msg hmsg
  · obtain ⟨r, -, rfl⟩ := List.mem_map.mp hmsg
    exact ⟨r, rfl⟩

theorem unburdening_deal (h : b.Unburdening bound) (hdeal : b.deal? = some b') :
    b'.Unburdening bound := by
  obtain ⟨msg, rest, hmail, hmachine, hleft⟩ := deal?_cases hdeal
  have hconfirmed := h.confirmed
  rw [hmail] at hconfirmed
  obtain ⟨⟨r, rfl⟩, hrest⟩ := List.forall_mem_cons.mp hconfirmed
  refine ⟨sound_deal h.toSound hdeal, confirmed_of_sublist hleft hrest, ?_⟩
  rw [hmachine]
  exact Nat.le_trans (burden_confirmation _ r h.consistent) h.burden

/-- A bench on which the timer of a device has expired. -/
def lapsed (d : Address) (g : Nat) (b : Bench) : Bench :=
  { b with controller.mailbox := b.controller.mailbox ++ [.timeout d g] }

theorem sound_lapsed (d : Address) (g : Nat) (h : b.Sound) : (b.lapsed d g).Sound :=
  sound_congr h rfl

/-- **An expiry, with all that is confirmed on account of it, takes from the burden.** -/
theorem burden_settle {g : Nat} (h : b.Sound) (hmail : b.controller.mailbox = [])
    (hlive : b.machine.timers.generation? d = some g) :
    (b.lapsed d g).settle.machine.burden < b.machine.burden := by
  have hrun : b.machine.stopped = false := h.covered.running_of_live hlive
  have hfront : (b.lapsed d g).controller.mailbox = [.timeout d g] := by
    rw [lapsed, hmail]
    rfl
  obtain ⟨b', hdeal, hmachine, hleft⟩ := deal?_cons hfront
  have hless : b'.machine.burden < b.machine.burden := by
    rw [hmachine]
    exact burden_expired _ h.consistent h.covered hrun hlive
  have hfirst : Unburdening b'.machine.burden b' :=
    { sound_deal (sound_lapsed d g h) hdeal with
      confirmed := confirmed_of_sublist hleft (by simp)
      burden := Nat.le_refl _ }
  obtain ⟨bound, hsettle⟩ := settle_of_deal hdeal
  rw [hsettle]
  exact Nat.lt_of_le_of_lt (dealUpTo_keeps unburdening_deal _ hfirst).burden hless

/-- A timer that expires is one that is armed, and what follows is dealt with. -/
theorem expireOldest?_cases (b : Bench) :
    (b.expireOldest? = none ∧ b.machine.timers.armed = ∅)
      ∨ ∃ d g, b.machine.timers.generation? d = some g
          ∧ b.expireOldest? = some (b.lapsed d g).settle := by
  unfold expireOldest?
  cases hold : b.controller.publisher.machine.timers.oldest? with
  | none => exact Or.inl ⟨rfl, Timers.armed_of_oldest? hold⟩
  | some entry => exact Or.inr ⟨entry.1, _, Timers.generation?_of_oldest? hold, rfl⟩

/-- As many expiries as the burden leave no timer. -/
theorem armed_expireUpTo (h : b.Sound) (hmail : b.controller.mailbox = [])
    (hbound : b.machine.burden ≤ bound) :
    (b.expireUpTo bound).Sound ∧ (b.expireUpTo bound).controller.mailbox = []
      ∧ (b.expireUpTo bound).machine.timers.armed = ∅ := by
  induction bound generalizing b with
  | zero => exact ⟨h, hmail, armed_of_unburdened h.covered (Nat.le_zero.mp hbound)⟩
  | succ bound ih =>
      rw [expireUpTo]
      rcases b.expireOldest?_cases with ⟨hnone, harmed⟩ | ⟨d, g, hlive, hexpire⟩
      · rw [hnone]
        exact ⟨h, hmail, harmed⟩
      · have hless := burden_settle h hmail hlive
        have hlapsed := sound_lapsed d g h
        rw [hexpire]
        exact ih (sound_settle hlapsed) (mailbox_settle hlapsed) (by omega)

/-! ## All together -/

/-- What can become of a bench. The host may do what it likes between two deals, and what is
stored and what the stack refuses may change, but only a deal moves the machine. -/
inductive Reachable : Bench → Prop where
  | start {settings : Settings} {registry : Registry} {c : Controller} (stack : ScriptedStack)
      (hbuild : Controller.build settings registry true = .ok c) :
      Reachable { controller := c, stack }
  | between {b b' : Bench} (h : Reachable b) (hmachine : b'.machine = b.machine) : Reachable b'
  | deal {b b' : Bench} (h : Reachable b) (hdeal : b.deal? = some b') : Reachable b'

theorem sound_start {settings : Settings} {registry : Registry} {c : Controller}
    (stack : ScriptedStack) (hbuild : Controller.build settings registry true = .ok c) :
    Sound { controller := c, stack } := by
  unfold Controller.build at hbuild
  split at hbuild
  · cases hbuild
  · obtain rfl := Except.ok.inj hbuild
    exact
      { consistent := consistent_run settings.capacity.toNat settings.timeout ⟨settings.quiet⟩ []
        covered := covered_run settings.capacity.toNat settings.timeout ⟨settings.quiet⟩ []
        queued := queued_run settings.capacity.toNat settings.timeout ⟨settings.quiet⟩ [] }

theorem Reachable.sound (h : b.Reachable) : b.Sound := by
  induction h with
  | start stack hbuild => exact sound_start stack hbuild
  | between _ hmachine ih => exact sound_congr ih hmachine
  | deal _ hdeal ih => exact sound_deal ih hdeal

/-- **A bench comes to rest.** Its mailbox is empty once it was worked off. When its timers have
expired as well, none is armed and the mailbox is empty again, and unless the machine has ended,
nothing is in flight and nothing waits. -/
theorem comes_to_rest (h : b.Reachable) :
    b.settle.controller.mailbox = []
      ∧ b.settle.expireAll.controller.mailbox = []
      ∧ b.settle.expireAll.machine.timers.armed = ∅
      ∧ (b.settle.expireAll.machine.stopped = false →
          b.settle.expireAll.machine.isStable = true
            ∧ b.settle.expireAll.machine.deferred = []) := by
  have hsound : b.settle.Sound := sound_settle h.sound
  have hmail : b.settle.controller.mailbox = [] := mailbox_settle h.sound
  have hburden : b.settle.machine.burden ≤ 2 * b.settle.waiting + 3 := by
    have hcount := b.settle.machine.pendingCount_le
    show _ + 2 * b.settle.waiting ≤ _
    omega
  obtain ⟨hend, hmail', harmed⟩ := armed_expireUpTo hsound hmail hburden
  refine ⟨hmail, hmail', harmed, fun hrun => ?_⟩
  have hticking : Ticking b.settle.expireAll.machine :=
    ⟨hend.consistent, hend.covered, hend.queued, hrun⟩
  refine hticking.rests fun d => ?_
  have hnone := armed_eq_empty_iff.mp harmed d
  rwa [Timers.mem_armed_iff, not_not] at hnone

end Bench

end AudioLink
