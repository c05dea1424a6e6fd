import AudioLink.Proofs.Queue

/-!
# What plays has no say in who is linked

The stack reports of streams and of their formats in the same mailbox in which it reports of
links, it asks there whether a device may complete its link, and the machine works on all of it
in the same way: it looks at its roles, it gives notices, and it looks at the queue afterwards.
None of what the machine learns of streams may ever decide who is linked, or when.

That is said of two runs, one of which is spared all such messages. `Turn.silent` is what is left
of a turn when everything about streams is taken away. Every handler does the same to the silent
turn as to the turn itself, or nothing at all, so the spared run is the silent form of the other.
The queue is why this needs more than a look at the handlers: after a message that is spared, a
request that waits must not be carried out either, and none is, since none waits for a machine
that is stable.
-/

namespace AudioLink

variable {env : Surroundings} {m : Machine} {d : Address} {msg : Message} {t : Turn}

/-! ## What bears on links -/

/-- The message may change a link. -/
def Message.bearsOnLinks : Message → Bool
  | .request _ | .event (.link ..) | .timeout .. | .shutdown => true
  | .event (.stream ..) | .event (.format ..) | .event (.permission _) => false

/-- The stack hears of it what is to become of a link. -/
def StackCall.bearsOnLinks : StackCall → Bool
  | .request _ | .rejected _ => true
  | .permission .. => false

/-- Listeners hear of it what has become of a link. -/
def Notice.bearsOnLinks : Notice → Bool
  | .link .. => true
  | .play .. | .format .. => false

/-- The effect is about a link, and not about sound or a question of the stack. -/
def Effect.bearsOnLinks : Effect → Bool
  | .notice n => n.bearsOnLinks
  | .request .. | .rejected _ => true
  | .permission .. => false

/-- The machine as it would be if nobody played and no format was known. -/
def Machine.silent (m : Machine) : Machine :=
  { m with playing := ∅, formats := ∅ }

/-- The turn as it would be if nobody played and no format was known. -/
def Turn.silent (t : Turn) : Turn :=
  ⟨t.machine.silent, t.effects.filter Effect.bearsOnLinks⟩

theorem Turn.notices_silent (t : Turn) :
    t.silent.notices = t.notices.filter Notice.bearsOnLinks := by
  rw [notices, notices, silent, List.filterMap_filter, List.filter_filterMap]
  refine List.filterMap_congr fun e _ => ?_
  cases e with
  | notice n => cases n <;> rfl
  | request | permission | rejected => rfl

theorem Turn.calls_silent (t : Turn) :
    t.silent.calls = t.calls.filter StackCall.bearsOnLinks := by
  rw [calls, calls, silent, List.filterMap_filter, List.filter_filterMap]
  refine List.filterMap_congr fun e _ => ?_
  cases e with
  | notice n => cases n <;> rfl
  | request | permission | rejected => rfl

namespace Turn

/-! ## The operations of a turn -/

theorem silent_goOn (es : List Effect) (m : Machine) (t : Turn) :
    (t.goOn es m).silent = t.silent.goOn (es.filter Effect.bearsOnLinks) m.silent := by
  rw [silent, goOn, List.filter_append]
  rfl

theorem silent_ite (c : Prop) [Decidable c] (t u : Turn) :
    (if c then t else u).silent = if c then t.silent else u.silent :=
  apply_ite silent c t u

theorem silent_emit (t : Turn) {e : Effect} (he : e.bearsOnLinks = true) :
    (t.emit e).silent = t.silent.emit e := by
  simp [silent, emit, he]

theorem silent_emit_aside (t : Turn) {e : Effect} (he : e.bearsOnLinks = false) :
    (t.emit e).silent = t.silent := by
  simp [silent, emit, he]

theorem silent_tellLink (d : Address) (old new : LinkState) (t : Turn) :
    (t.tellLink d old new).silent = t.silent.tellLink d old new :=
  silent_emit t rfl

/-- As many requests were made as without the streams, so the next one gets the same answer. -/
theorem accepts_silent (env : Surroundings) (r : Request) (t : Turn) :
    t.silent.accepts env r = t.accepts env r := by
  have hcount : t.silent.effects.countP Effect.isRequest = t.effects.countP Effect.isRequest := by
    rw [silent, List.countP_filter]
    refine List.countP_congr fun e _ => ?_
    cases e <;> simp [Effect.isRequest, Effect.bearsOnLinks]
  rw [accepts, hcount, accepts]

theorem silent_ask (env : Surroundings) (r : Request) (t : Turn) :
    (t.ask env r).silent = t.silent.ask env r := by
  rw [ask, silent_emit t rfl, ask, accepts_silent]
  rfl

theorem silent_reject (env : Surroundings) (d : Address) (t : Turn) :
    (t.reject env d).silent = t.silent.reject env d := by
  rw [reject, silent_emit _ rfl, silent_ask, reject]

/-- A change goes for the silent machine as well if it does not look at what plays. -/
theorem silent_change (t : Turn) {f : Machine → Machine}
    (hf : ∀ m, (f m).silent = f m.silent) : (t.change f).silent = t.silent.change f :=
  congrArg (fun m => Turn.mk m _) (hf t.machine)

theorem silent_startTimer (d : Address) (t : Turn) :
    (t.startTimer d).silent = t.silent.startTimer d :=
  silent_change t fun _ => rfl

theorem silent_cancelTimer (d : Address) (t : Turn) :
    (t.cancelTimer d).silent = t.silent.cancelTimer d :=
  silent_change t fun _ => rfl

theorem silent_forgetFormat (d : Address) (t : Turn) :
    (t.forgetFormat d).silent = t.silent.forgetFormat d :=
  silent_change t fun _ => by simp [Machine.silent]

/-- Nobody has to be stopped where nobody plays. -/
theorem stopPlaying_silent (d : Address) (t : Turn) : t.silent.stopPlaying d = t.silent :=
  if_neg Std.ExtTreeSet.not_mem_empty

theorem silent_stopPlaying (d : Address) (t : Turn) :
    (t.stopPlaying d).silent = t.silent.stopPlaying d := by
  rw [stopPlaying_silent, stopPlaying]
  split
  · exact silent_emit_aside _ rfl
  · rfl

theorem silent_enlist (d : Address) (old : LinkState) (t : Turn) :
    (t.enlist d old).silent = t.silent.enlist d old := by
  rw [enlist, silent_tellLink, silent_change]
  · rfl
  · exact fun _ => rfl

theorem silent_electPrimary (t : Turn) : t.electPrimary.silent = t.silent.electPrimary := by
  have hsame : t.silent.machine.newestSettled = t.machine.newestSettled := rfl
  rw [electPrimary, electPrimary, hsame]
  cases t.machine.newestSettled with
  | none => exact silent_change t fun _ => rfl
  | some e =>
      dsimp only
      rw [silent_tellLink, silent_change]
      exact fun _ => rfl

theorem silent_expel (d : Address) (old : LinkState) (t : Turn) :
    (t.expel d old).silent = t.silent.expel d old := by
  dsimp only [expel]
  rw [← silent_change, ← silent_stopPlaying, ← silent_forgetFormat, ← silent_tellLink, silent_ite,
    silent_electPrimary]
  · rfl
  · exact fun _ => rfl

theorem silent_awaitLink (d : Address) (t : Turn) :
    (t.awaitLink d).silent = t.silent.awaitLink d := by
  rw [awaitLink, silent_startTimer, silent_change]
  · rfl
  · exact fun _ => rfl

theorem silent_abandonOutgoing (t : Turn) :
    t.abandonOutgoing.silent = t.silent.abandonOutgoing := by
  have hsame : t.silent.machine.outgoing = t.machine.outgoing := rfl
  rw [abandonOutgoing, abandonOutgoing, hsame]
  cases t.machine.outgoing with
  | none => rfl
  | some o =>
      dsimp only
      rw [silent_tellLink, silent_forgetFormat, silent_cancelTimer, silent_change]
      exact fun _ => rfl

section Handlers

variable (env : Surroundings) (d : Address) (t : Turn)

/-! ## Requests of the host -/

theorem silent_requestLink : (t.requestLink env d).silent = t.silent.requestLink env d := by
  rw [requestLink, silent_ite, silent_awaitLink, silent_tellLink, silent_ask, requestLink,
    accepts_silent]

theorem silent_evictFor : (t.evictFor env d).silent = t.silent.evictFor env d := by
  have hsame : t.silent.machine.members = t.machine.members := rfl
  rw [evictFor, evictFor, hsame]
  cases t.machine.members with
  | nil => exact silent_tellLink ..
  | cons victim rest =>
      dsimp only
      rw [silent_ite, silent_startTimer, silent_change, silent_startTimer, silent_change,
        silent_stopPlaying, silent_tellLink, silent_tellLink, silent_ask, accepts_silent]
      -- of the two changes, neither looks at what plays
      all_goals exact fun _ => rfl

theorem silent_bringUp : (t.bringUp env d).silent = t.silent.bringUp env d := by
  dsimp only [bringUp]
  rw [silent_ite, silent_requestLink, silent_evictFor, silent_tellLink]
  rfl

theorem silent_takeDown : (t.takeDown env d).silent = t.silent.takeDown env d := by
  dsimp only [takeDown]
  rw [silent_ite, silent_stopPlaying, silent_startTimer, silent_change, silent_tellLink, silent_ask,
    silent_tellLink, ← silent_tellLink, accepts_silent]
  exact fun _ => rfl

theorem silent_carryOut (r : Request) : (t.carryOut env r).silent = t.silent.carryOut env r := by
  cases r with
  | connect d =>
      rw [carryOut, silent_ite, silent_bringUp]
      rfl
  | disconnect d =>
      rw [carryOut, silent_ite, silent_takeDown]
      rfl

theorem silent_defer (r : Request) : (t.defer r).silent = t.silent.defer r :=
  silent_ite ..

theorem silent_connect : (t.connect env d).silent = t.silent.connect env d := by
  rw [connect, silent_ite, silent_ite, silent_bringUp, silent_defer]
  rfl

theorem silent_disconnect : (t.disconnect env d).silent = t.silent.disconnect env d := by
  rw [disconnect, silent_ite, silent_ite, silent_ite, silent_ite, silent_takeDown, silent_defer,
    silent_abandonOutgoing]
  rfl

theorem silent_replay (queue : List Request) :
    (t.replay env queue).silent = t.silent.replay env queue := by
  induction queue generalizing t with
  | nil => rfl
  | cons r rest ih =>
      rw [replay, silent_ite, ih, silent_carryOut]
      rfl

/-! ## Events of the stack -/

theorem silent_requestAwaited :
    (t.requestAwaited env d).silent = t.silent.requestAwaited env d := by
  rw [requestAwaited, silent_ite, silent_awaitLink, silent_abandonOutgoing, silent_ask,
    requestAwaited, accepts_silent]

/-- A member is gone, and whoever waited for its place is asked for. -/
theorem silent_linkDown_leaving (hleave : t.machine.leaving = some d) :
    (t.linkDown env d).silent = t.silent.linkDown env d := by
  have hleave' : t.silent.machine.leaving = some d := hleave
  have hgone : ((t.silent.change fun m => { m with leaving := none }).cancelTimer d).expel d
        .disconnecting
      = (((t.change fun m => { m with leaving := none }).cancelTimer d).expel d
        .disconnecting).silent := by
    rw [silent_expel, silent_cancelTimer, silent_change]
    exact fun _ => rfl
  simp only [linkDown, if_pos hleave, if_pos hleave', hgone]
  -- what is left to do does not depend on how the member went
  generalize ((t.change fun m => { m with leaving := none }).cancelTimer d).expel d
    .disconnecting = u
  have hsame : u.silent.machine.outgoing = u.machine.outgoing := rfl
  rw [hsame]
  split
  · rw [silent_ite, silent_requestAwaited]
  · rfl

theorem silent_linkDown : (t.linkDown env d).silent = t.silent.linkDown env d := by
  by_cases hleave : t.machine.leaving = some d
  · exact silent_linkDown_leaving env d t hleave
  · have hleave' : t.silent.machine.leaving ≠ some d := hleave
    simp only [linkDown, if_neg hleave, if_neg hleave']
    rw [silent_ite, silent_ite, silent_ite, silent_expel, silent_abandonOutgoing, silent_tellLink,
      silent_forgetFormat, silent_cancelTimer, silent_change]
    · rfl
    · exact fun _ => rfl

theorem silent_linkComing : (t.linkComing env d).silent = t.silent.linkComing env d := by
  dsimp only [linkComing]
  rw [silent_ite, silent_ite, silent_startTimer, silent_tellLink, silent_reject]
  rfl

/-- A link that was being brought up is up. -/
theorem silent_complete {f : Machine → Machine} (hf : ∀ m, (f m).silent = f m.silent) :
    (((t.change f).cancelTimer d).enlist d .connecting).silent
      = ((t.silent.change f).cancelTimer d).enlist d .connecting := by
  rw [silent_enlist, silent_cancelTimer, silent_change t hf]

/-- A member stays after all, and whoever waited for its place is given up. -/
theorem silent_linkUp_leaving (hout : t.machine.outgoingDevice ≠ some d)
    (hin : t.machine.incoming ≠ some d) (hleave : t.machine.leaving = some d) :
    (t.linkUp env d).silent = t.silent.linkUp env d := by
  have hout' : t.silent.machine.outgoingDevice ≠ some d := hout
  have hin' : t.silent.machine.incoming ≠ some d := hin
  have hleave' : t.silent.machine.leaving = some d := hleave
  have hstays : ((t.silent.change fun m => { m with leaving := none }).cancelTimer d).tellLink d
        .disconnecting .connected
      = (((t.change fun m => { m with leaving := none }).cancelTimer d).tellLink d
        .disconnecting .connected).silent := by
    rw [silent_tellLink, silent_cancelTimer, silent_change]
    exact fun _ => rfl
  simp only [linkUp, if_neg hout, if_neg hout', if_neg hin, if_neg hin', if_pos hleave,
    if_pos hleave', hstays]
  generalize ((t.change fun m => { m with leaving := none }).cancelTimer d).tellLink d
    .disconnecting .connected = u
  have hsame : u.silent.machine.outgoing = u.machine.outgoing := rfl
  rw [hsame]
  split
  · rw [silent_ite, silent_abandonOutgoing]
  · rfl

theorem silent_linkUp : (t.linkUp env d).silent = t.silent.linkUp env d := by
  by_cases hout : t.machine.outgoingDevice = some d
  · have hout' : t.silent.machine.outgoingDevice = some d := hout
    simp only [linkUp, if_pos hout, if_pos hout']
    rw [silent_ite, silent_complete, silent_abandonOutgoing, silent_ask]
    · rfl
    · exact fun _ => rfl
  have hout' : t.silent.machine.outgoingDevice ≠ some d := hout
  by_cases hin : t.machine.incoming = some d
  · have hin' : t.silent.machine.incoming = some d := hin
    simp only [linkUp, if_neg hout, if_neg hout', if_pos hin, if_pos hin']
    rw [silent_ite, silent_complete, silent_ask]
    · rfl
    · exact fun _ => rfl
  have hin' : t.silent.machine.incoming ≠ some d := hin
  by_cases hleave : t.machine.leaving = some d
  · exact silent_linkUp_leaving env d t hout hin hleave
  · have hleave' : t.silent.machine.leaving ≠ some d := hleave
    simp only [linkUp, if_neg hout, if_neg hout', if_neg hin, if_neg hin', if_neg hleave,
      if_neg hleave']
    rw [silent_ite, silent_ite, silent_enlist, silent_reject]
    rfl

/-! ## Timers and the end -/

theorem silent_settleLeaving : (t.settleLeaving env d).silent = t.silent.settleLeaving env d := by
  rw [settleLeaving, silent_ite, silent_linkDown, silent_cancelTimer]
  rfl

theorem silent_giveUpOutgoing : (t.giveUpOutgoing env).silent = t.silent.giveUpOutgoing env := by
  have hsame : t.silent.machine.outgoing = t.machine.outgoing := rfl
  rw [giveUpOutgoing, giveUpOutgoing, hsame]
  split
  · rfl
  · rw [silent_settleLeaving, silent_abandonOutgoing]
  · rw [silent_linkDown, silent_ask]

theorem silent_giveUp : (t.giveUp env d).silent = t.silent.giveUp env d := by
  rw [giveUp, silent_ite, silent_ite, silent_ite, silent_giveUpOutgoing, silent_linkDown,
    silent_linkDown, silent_ask]
  rfl

theorem silent_expire (g : Nat) : (t.expire env d g).silent = t.silent.expire env d g := by
  have hsame : t.silent.machine.timers = t.machine.timers := rfl
  rw [expire, expire, hsame]
  split
  · rfl
  · rw [silent_giveUp, silent_change]
    exact fun _ => rfl

theorem silent_dropOutgoing : (t.dropOutgoing env).silent = t.silent.dropOutgoing env := by
  have hsame : t.silent.machine.outgoing = t.machine.outgoing := rfl
  rw [dropOutgoing, dropOutgoing, hsame]
  split
  · rfl
  · rw [silent_tellLink, silent_forgetFormat, silent_ite, silent_ask, silent_change]
    exact fun _ => rfl

theorem silent_dropIncoming : (t.dropIncoming env).silent = t.silent.dropIncoming env := by
  have hsame : t.silent.machine.incoming = t.machine.incoming := rfl
  rw [dropIncoming, dropIncoming, hsame]
  split
  · rfl
  · rw [silent_tellLink, silent_forgetFormat, silent_ask, silent_change]
    exact fun _ => rfl

theorem silent_shutDown : (t.shutDown env).silent = t.silent.shutDown env := by
  rw [shutDown, silent_change, silent_dropIncoming, silent_dropOutgoing]
  · rfl
  · exact fun _ => rfl

/-! ## Messages -/

/-- **A message that bears on links is worked on as if nobody played.** -/
theorem silent_process (hmsg : msg.bearsOnLinks = true) :
    (t.process env msg).silent = t.silent.process env msg := by
  cases msg with
  | request r =>
      cases r with
      | connect d => exact silent_connect env d t
      | disconnect d => exact silent_disconnect env d t
  | event e =>
      cases e with
      | link d state =>
          cases state with
          | disconnected => exact silent_linkDown env d t
          | connecting => exact silent_linkComing env d t
          | connected => exact silent_linkUp env d t
          | disconnecting => rfl
      | stream | format | permission => cases hmsg
  | timeout d g => exact silent_expire env d t g
  | shutdown => exact silent_shutDown env t

theorem silent_streamChanged (state : StreamState) :
    (t.streamChanged d state).silent = t.silent := by
  unfold streamChanged
  split
  · split
    · split
      · rfl
      · exact silent_emit_aside _ rfl
    · rw [silent_stopPlaying, stopPlaying_silent]
  · rfl

theorem silent_formatChanged (format : StreamFormat) :
    (t.formatChanged d format).silent = t.silent := by
  unfold formatChanged
  split
  · split
    · rfl
    · exact silent_emit_aside _ rfl
  · rfl

/-- **A message that does not bear on links goes by unheard.** -/
theorem silent_process_aside (hmsg : msg.bearsOnLinks = false) :
    (t.process env msg).silent = t.silent := by
  cases msg with
  | event e =>
      cases e with
      | link => cases hmsg
      | stream d state => exact silent_streamChanged d t state
      | format d format => exact silent_formatChanged d t format
      | permission d => exact silent_emit_aside _ rfl
  | request | timeout | shutdown => cases hmsg

end Handlers

end Turn

theorem silent_handle (env : Surroundings) (m : Machine) (hmsg : msg.bearsOnLinks = true) :
    (m.handle env msg).silent = m.silent.handle env msg := by
  have hprocess : Turn.process env { machine := m.silent } msg
      = (Turn.process env { machine := m } msg).silent :=
    (Turn.silent_process env { machine := m } hmsg).symm
  dsimp only [Machine.handle]
  rw [Turn.silent_ite, Turn.silent_replay, hprocess]
  rfl

/-- A message that does not bear on links does not serve a request that waits, either. -/
theorem silent_handle_aside (env : Surroundings) (hq : Queued m)
    (hmsg : msg.bearsOnLinks = false) : (m.handle env msg).silent = { machine := m.silent } := by
  cases hrun : m.stopped with
  | true =>
      rw [handle_stopped msg hrun]
      rfl
  | false =>
      have hunheard : (Turn.process env { machine := m } msg).silent = { machine := m.silent } :=
        Turn.silent_process_aside env _ hmsg
      -- the roles and the queue are those that the message has found
      have hsame : (Turn.process env { machine := m } msg).machine.silent = m.silent :=
        congrArg Turn.machine hunheard
      have hroles : (Turn.process env { machine := m } msg).machine.toRoles = m.toRoles :=
        congrArg (·.toRoles) hsame
      have hqueue : (Turn.process env { machine := m } msg).machine.deferred = m.deferred :=
        congrArg (·.deferred) hsame
      dsimp only [Machine.handle]
      rw [if_neg (by simp [hrun]), replay_of_patient, hunheard]
      intro hstable
      rw [hroles] at hstable
      rw [hqueue]
      exact hq.patient hrun hstable

/-! ## Two runs -/

/-- **The run that is spared what does not bear on links is the silent form of the other.** -/
theorem silent_run (capacity : Nat) (timeout : Duration) (policy : Policy)
    (occasions : List (Surroundings × Message)) :
    ((Machine.fresh capacity timeout policy).run occasions).silent
      = (Machine.fresh capacity timeout policy).run
          (occasions.filter fun o => o.2.bearsOnLinks) := by
  induction occasions using List.reverseRecOn with
  | nil => rfl
  | append_singleton occasions o ih =>
      let t := (Machine.fresh capacity timeout policy).run occasions
      have hq : Queued t.machine := queued_run capacity timeout policy occasions
      rw [run_concat, Turn.silent_goOn, List.filter_append]
      cases hmsg : o.2.bearsOnLinks with
      | true =>
          have hstep := silent_handle o.1 t.machine hmsg
          rw [List.filter_cons_of_pos (by simpa using hmsg), List.filter_nil, run_concat, ← ih]
          exact congrArg (fun u => t.silent.goOn u.effects u.machine) hstep
      | false =>
          have hstep := silent_handle_aside o.1 hq hmsg
          rw [List.filter_cons_of_neg (by simpa using hmsg), List.filter_nil, List.append_nil,
            ← ih]
          calc t.silent.goOn ((t.machine.handle o.1 o.2).effects.filter Effect.bearsOnLinks)
                (t.machine.handle o.1 o.2).machine.silent
              = t.silent.goOn [] t.machine.silent :=
                congrArg (fun u => t.silent.goOn u.effects u.machine) hstep
            _ = t.silent := t.silent.goOn_nil

/-- **What plays has no say in who is linked.** Take any run, and the same run without the
reports of streams and of formats and without the questions whether a device may complete its
link; all other messages find the same facts and get the same answers. The second run ends with
the same roles, the same requests that wait and the same timers; it has made the same requests
of the stack, with the same answers, and has turned away the same devices; and it has told of
the same changes of links, all in the same order. Nothing else has come of it. -/
theorem links_ignore_what_plays (capacity : Nat) (timeout : Duration) (policy : Policy)
    (occasions : List (Surroundings × Message)) :
    let start := Machine.fresh capacity timeout policy
    let whole := start.run occasions
    let spared := start.run (occasions.filter fun o => o.2.bearsOnLinks)
    spared.machine.toRoles = whole.machine.toRoles
      ∧ spared.machine.deferred = whole.machine.deferred
      ∧ spared.machine.stopped = whole.machine.stopped
      ∧ spared.machine.timers = whole.machine.timers
      ∧ spared.effects = whole.effects.filter Effect.bearsOnLinks
      ∧ spared.calls = whole.calls.filter StackCall.bearsOnLinks
      ∧ spared.notices = whole.notices.filter Notice.bearsOnLinks := by
  intro start whole spared
  have hspared : spared = whole.silent := (silent_run capacity timeout policy occasions).symm
  rw [hspared]
  exact ⟨rfl, rfl, rfl, rfl, rfl, whole.calls_silent, whole.notices_silent⟩

end AudioLink
