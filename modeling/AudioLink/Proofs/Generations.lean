import AudioLink.Proofs.Queue

/-!
# No timer is acted on twice

Between the moment at which a timer expires and the moment at which the machine reads of it,
the timer may have been cancelled, or started again, and an expiry may reach the machine more
than once. All that tells these cases apart is the generation that the expiry bears.

What makes it enough is said here over whatever the timers were called upon to do: a
generation is handed out once only, and it can be claimed exactly as long as nothing has ended
the timer it was handed out for. A successful claim is one of the things that end it. For the
machine, an expiry that cannot be claimed is as good as none.
-/

namespace AudioLink

variable {d e : Address} {g : Nat}

namespace Timers

/-- What the timers can be called upon to do. -/
inductive Call where
  | start (d : Address) (duration : Duration)
  | cancel (d : Address)
  | cancelAll
  | claim (d : Address) (generation : Nat)
deriving DecidableEq, Repr

variable {t : Timers} {c : Call} {calls : List Call}

/-- The timers after a call. A claim that fails leaves them as they were. -/
def receive (t : Timers) : Call → Timers
  | .start d duration => t.start d duration
  | .cancel d => t.cancel d
  | .cancelAll => t.cancelAll
  | .claim d g => (t.claim? d g).getD t

/-- The timers after some calls. -/
def run (calls : List Call) (t : Timers) : Timers :=
  calls.foldl receive t

/-- The generation that a call hands out, if it starts a timer. -/
def handsOut? (t : Timers) : Call → Option Nat
  | .start d duration => (t.start d duration).generation? d
  | .cancel _ | .cancelAll | .claim .. => none

/-- The generation that a call claims, if it is a claim and succeeds. -/
def claims? (t : Timers) : Call → Option Nat
  | .claim d g => (t.claim? d g).map fun _ => g
  | .start .. | .cancel _ | .cancelAll => none

/-- What some calls yield one after another, each at the timers it finds. -/
def yielded (yields? : Timers → Call → Option Nat) : List Call → Timers → List Nat
  | [], _ => []
  | c :: rest, t => (yields? t c).toList ++ yielded yields? rest (t.receive c)

/-- The generations that some calls hand out, in order. -/
def handedOut : List Call → Timers → List Nat :=
  yielded handsOut?

/-- The generations that some calls claim, in order. -/
def claimed : List Call → Timers → List Nat :=
  yielded claims?

/-- The call ends the timer that a device may have: it starts it anew, cancels it, alone or
with all others, or claims it with success. -/
def Call.ends (d : Address) (t : Timers) : Call → Bool
  | .start e _ | .cancel e => e = d
  | .cancelAll => true
  | .claim e g => e = d && (t.claim? e g).isSome

/-- After some calls to new timers, a generation is live for a device: it was handed out when
the timer of the device was started, and no call since then has ended that timer. -/
def Live (calls : List Call) (d : Address) (g : Nat) : Prop :=
  ∃ before duration since, calls = before ++ .start d duration :: since
    ∧ (run before {}).handsOut? (.start d duration) = some g
    ∧ ∀ passed c rest, since = passed ++ c :: rest →
        c.ends d (run (before ++ .start d duration :: passed) {}) = false

theorem claim?_isSome : (t.claim? d g).isSome = true ↔ t.generation? d = some g := by
  unfold claim?
  split <;> simp [*]

theorem claim?_of_live (h : t.generation? d = some g) : t.claim? d g = some (t.cancel d) :=
  if_pos h

theorem claim?_of_stale (h : t.generation? d ≠ some g) : t.claim? d g = none :=
  if_neg h

/-- A claim takes the timer away, or does nothing. -/
theorem receive_claim (t : Timers) (d : Address) (g : Nat) :
    t.receive (.claim d g) = if t.generation? d = some g then t.cancel d else t := by
  by_cases h : t.generation? d = some g
  · rw [receive, claim?_of_live h, if_pos h, Option.getD_some]
  · rw [receive, claim?_of_stale h, if_neg h, Option.getD_none]

theorem handsOut?_start (t : Timers) (d : Address) (duration : Duration) :
    t.handsOut? (.start d duration) = some (t.lastGeneration + 1) := by
  simp [handsOut?]

@[simp] theorem run_nil (t : Timers) : t.run [] = t := rfl

theorem run_append (calls calls' : List Call) (t : Timers) :
    t.run (calls ++ calls') = (t.run calls).run calls' :=
  List.foldl_append

theorem run_concat (calls : List Call) (c : Call) (t : Timers) :
    t.run (calls ++ [c]) = (t.run calls).receive c :=
  run_append calls [c] t

/-! ## Generations are handed out in ascending order -/

/-- The generation handed out last never goes back. -/
theorem lastGeneration_receive (t : Timers) (c : Call) :
    t.lastGeneration ≤ (t.receive c).lastGeneration := by
  cases c with
  | start d duration => exact Nat.le_succ _
  | cancel d => exact Nat.le_refl _
  | cancelAll => exact Nat.le_refl _
  | claim d g =>
      rw [receive_claim]
      split <;> exact Nat.le_refl _

/-- What is handed out is above all before it, and is handed out last. -/
theorem lastGeneration_of_handsOut? (h : t.handsOut? c = some g) :
    t.lastGeneration < g ∧ (t.receive c).lastGeneration = g := by
  cases c with
  | start d duration =>
      rw [handsOut?_start] at h
      obtain rfl := Option.some.inj h
      exact ⟨Nat.lt_succ_self _, rfl⟩
  | cancel d => cases h
  | cancelAll => cases h
  | claim d g => cases h

theorem lastGeneration_lt_of_mem (h : g ∈ handedOut calls t) : t.lastGeneration < g := by
  induction calls generalizing t with
  | nil => cases h
  | cons c rest ih =>
      rcases List.mem_append.mp h with h | h
      · exact (lastGeneration_of_handsOut? (Option.mem_toList.mp h)).1
      · exact Nat.lt_of_le_of_lt (lastGeneration_receive t c) (ih h)

/-- **Generations are handed out in ascending order**, whichever devices they are for. -/
theorem handedOut_ascending (calls : List Call) (t : Timers) :
    (handedOut calls t).Pairwise (· < ·) := by
  induction calls generalizing t with
  | nil => exact .nil
  | cons c rest ih =>
      refine List.pairwise_append.mpr ⟨?_, ih (t.receive c), ?_⟩
      · cases t.handsOut? c <;> simp
      · intro g hg g' hg'
        have hlast := (lastGeneration_of_handsOut? (Option.mem_toList.mp hg)).2
        have hlater := lastGeneration_lt_of_mem hg'
        rwa [hlast] at hlater

/-! ## What can be claimed -/

/-- What a call leaves of the timer of a device: a new one, if it is a start for it; none, if
it ends it otherwise; and else the one that was there. -/
theorem generation?_receive :
    (t.receive c).generation? d = some g
      ↔ (∃ duration, c = .start d duration ∧ t.handsOut? c = some g)
        ∨ (c.ends d t = false ∧ t.generation? d = some g) := by
  cases c with
  | start e duration =>
      by_cases hed : e = d
      · subst hed
        simp [receive, handsOut?_start, Call.ends]
      · simp [receive, Call.ends, hed]
  | cancel e => by_cases hed : e = d <;> simp [receive, Call.ends, hed]
  | cancelAll => simp [receive, Call.ends]
  | claim e g' =>
      rw [receive_claim, Call.ends]
      by_cases hlive : t.generation? e = some g'
      · by_cases hed : e = d
        · subst hed
          simp [claim?_of_live, hlive]
        · simp [hlive, hed]
      · simp [claim?_of_stale, hlive]

theorem not_live_nil (d : Address) (g : Nat) : ¬Live [] d g := by
  rintro ⟨before, duration, since, hcalls, -⟩
  simp at hcalls

/-- A live generation is one that the last call has handed out, or was live before it and was
not ended by it. -/
theorem live_concat :
    Live (calls ++ [c]) d g
      ↔ (∃ duration, c = .start d duration ∧ (run calls {}).handsOut? c = some g)
        ∨ (c.ends d (run calls {}) = false ∧ Live calls d g) := by
  constructor
  · rintro ⟨before, duration, since, hcalls, hgiven, hsince⟩
    rcases List.eq_nil_or_concat since with rfl | ⟨passed, last, rfl⟩
    · obtain ⟨rfl, hc⟩ := List.append_inj' hcalls rfl
      obtain rfl := List.singleton_inj.mp hc
      exact Or.inl ⟨duration, rfl, hgiven⟩
    · rw [List.concat_eq_append] at hcalls hsince
      rw [← List.cons_append, ← List.append_assoc] at hcalls
      obtain ⟨rfl, hc⟩ := List.append_inj' hcalls rfl
      obtain rfl := List.singleton_inj.mp hc
      refine Or.inr ⟨hsince passed c [] rfl, before, duration, passed, rfl, hgiven, ?_⟩
      rintro passed' c' rest rfl
      exact hsince passed' c' (rest ++ [c]) (by simp)
  · rintro (⟨duration, rfl, hgiven⟩ | ⟨hends, before, duration, since, rfl, hgiven, hsince⟩)
    · exact ⟨calls, duration, [], rfl, hgiven, by simp⟩
    · refine ⟨before, duration, since ++ [c], by simp, hgiven, ?_⟩
      intro passed c' rest hsplit
      rcases List.eq_nil_or_concat rest with rfl | ⟨rest, last, rfl⟩
      · obtain ⟨rfl, hc⟩ := List.append_inj' hsplit rfl
        obtain rfl := List.singleton_inj.mp hc
        exact hends
      · rw [List.concat_eq_append, ← List.cons_append, ← List.append_assoc] at hsplit
        exact hsince passed c' rest (List.append_inj' hsplit rfl).1

/-- Whatever went before it, a start hands out a generation, which is live then. -/
theorem live_of_start (calls : List Call) (d : Address) (duration : Duration) :
    ∃ g, (run calls {}).handsOut? (.start d duration) = some g
      ∧ Live (calls ++ [.start d duration]) d g :=
  ⟨_, handsOut?_start .., live_concat.mpr (Or.inl ⟨duration, rfl, handsOut?_start ..⟩)⟩

/-- **A generation is armed exactly as long as it is live.** -/
theorem generation?_run (calls : List Call) :
    (run calls {}).generation? d = some g ↔ Live calls d g := by
  induction calls using List.reverseRecOn with
  | nil => simp [not_live_nil, generation?]
  | append_singleton calls c ih => rw [run_concat, generation?_receive, live_concat, ih]

/-! ## Nothing is claimed twice -/

/-- Generations are known to be handed out, and armed for one device each. -/
structure Distinct (t : Timers) : Prop where
  /-- What is armed was handed out. -/
  known : ∀ {d g}, t.generation? d = some g → g ≤ t.lastGeneration
  /-- No two devices share a generation. -/
  apart : ∀ {d e g}, t.generation? d = some g → t.generation? e = some g → d = e

theorem distinct_new : Distinct {} where
  known := by simp [generation?]
  apart := by simp [generation?]

/-- Fewer timers are as distinct as more. -/
theorem distinct_of_sub {t' : Timers} (h : Distinct t)
    (hlast : t'.lastGeneration = t.lastGeneration)
    (hsub : ∀ {d g}, t'.generation? d = some g → t.generation? d = some g) : Distinct t' where
  known := fun hg => hlast ▸ h.known (hsub hg)
  apart := fun hd he => h.apart (hsub hd) (hsub he)

theorem distinct_cancel (h : Distinct t) (d : Address) : Distinct (t.cancel d) := by
  refine distinct_of_sub h rfl fun {e g} hg => ?_
  rw [generation?_cancel] at hg
  split at hg
  · cases hg
  · exact hg

theorem distinct_start (h : Distinct t) (d : Address) (duration : Duration) :
    Distinct (t.start d duration) where
  known := by
    intro e g hg
    rw [generation?_start] at hg
    split at hg
    · exact Nat.le_of_eq (Option.some.inj hg).symm
    · exact Nat.le_succ_of_le (h.known hg)
  apart := by
    -- what was handed out just now is above all that is armed already
    have hnew : ∀ {e}, t.generation? e ≠ some (t.lastGeneration + 1) :=
      fun he => Nat.not_succ_le_self _ (h.known he)
    intro e f g he hf
    rw [generation?_start] at he hf
    split at he <;> split at hf
    · next hde hdf => exact hde.symm.trans hdf
    · exact absurd (hf.trans he.symm) hnew
    · exact absurd (he.trans hf.symm) hnew
    · exact h.apart he hf

theorem distinct_receive (h : Distinct t) (c : Call) : Distinct (t.receive c) := by
  cases c with
  | start d duration => exact distinct_start h d duration
  | cancel d => exact distinct_cancel h d
  | cancelAll => exact distinct_of_sub h rfl fun hg => by simp [receive] at hg
  | claim d g =>
      rw [receive_claim]
      split
      · exact distinct_cancel h d
      · exact h

/-- What was handed out once and is armed no more is never claimed. -/
theorem not_mem_claimed (calls : List Call) (hknown : g ≤ t.lastGeneration)
    (hgone : ∀ d, t.generation? d ≠ some g) : g ∉ claimed calls t := by
  induction calls generalizing t with
  | nil => exact List.not_mem_nil
  | cons c rest ih =>
      intro hg
      rcases List.mem_append.mp hg with hg | hg
      · cases c with
        | claim d g' =>
            obtain ⟨t', hclaim, rfl⟩ := Option.map_eq_some_iff.mp (Option.mem_toList.mp hg)
            exact hgone d (claim?_isSome.mp (Option.isSome_of_eq_some hclaim))
        | start | cancel | cancelAll => simp [claims?] at hg
      · refine ih (Nat.le_trans hknown (lastGeneration_receive t c)) (fun d hd => ?_) hg
        rcases generation?_receive.mp hd with ⟨duration, -, hgiven⟩ | ⟨-, hd⟩
        · exact Nat.not_lt_of_le hknown (lastGeneration_of_handsOut? hgiven).1
        · exact hgone d hd

/-- **No generation is claimed twice.** -/
theorem claimed_nodup (calls : List Call) (h : Distinct t) : (claimed calls t).Nodup := by
  induction calls generalizing t with
  | nil => exact List.nodup_nil
  | cons c rest ih =>
      refine List.nodup_append.mpr ⟨?_, ih (distinct_receive h c), ?_⟩
      · cases t.claims? c <;> simp
      · intro g hg g' hg' heq
        subst heq
        cases c with
        | claim d g' =>
            obtain ⟨t', hclaim, rfl⟩ := Option.map_eq_some_iff.mp (Option.mem_toList.mp hg)
            have hlive : t.generation? d = some g' :=
              claim?_isSome.mp (Option.isSome_of_eq_some hclaim)
            refine not_mem_claimed rest ?_ ?_ hg'
            · exact Nat.le_trans (h.known hlive) (lastGeneration_receive t _)
            · intro e he
              rw [receive_claim, if_pos hlive, generation?_cancel] at he
              split at he
              · cases he
              · next hne => exact hne (h.apart hlive he)
        | start | cancel | cancelAll => simp [claims?] at hg

end Timers

/-! ## The timers of a machine -/

section Machine

variable {env : Surroundings} {m m' : Machine} {es : List Effect} {msg : Message}

/-- The timers are as some calls have left them. -/
def Timers.Served (t : Timers) : Prop :=
  ∃ calls, t = Timers.run calls {}

theorem served_receive {t : Timers} (h : t.Served) (c : Timers.Call) : (t.receive c).Served := by
  obtain ⟨calls, rfl⟩ := h
  exact ⟨calls ++ [c], (Timers.run_concat calls c {}).symm⟩

theorem served_start {t : Timers} (h : t.Served) (d : Address) (duration : Duration) :
    (t.start d duration).Served :=
  served_receive h (.start d duration)

theorem served_cancel {t : Timers} (h : t.Served) (d : Address) : (t.cancel d).Served :=
  served_receive h (.cancel d)

theorem served_parted (h : m.timers.Served) (hp : Parted env m d es m') : m'.timers.Served := by
  have hend := served_cancel h d
  cases hp with
  | vacated => exact hend
  | requested => exact served_start hend _ _
  | refused => exact served_cancel hend _

theorem served_outcome (h : m.timers.Served) (ho : Outcome env m msg es m') :
    m'.timers.Served := by
  cases ho with
  | linkRequested | partingBegun | incomingBegun => exact served_start h _ _
  | evictionBegun => exact served_start (served_start h _ _) _ _
  | withdrawn | linkFailed | incomingFailed | linked | linkedEarly | incomingLinked | stayed
  | linkExpired | incomingExpired | nothingExpired => exact served_cancel h _
  | stayedAgainst | evictionExpired => exact served_cancel (served_cancel h _) _
  | parted _ hp | partingExpired _ _ hp => exact served_parted h hp
  | stopped hout hin =>
      have hkept : ∀ {m₁ m₂ es es'}, OutgoingDropped env m es m₁ →
          IncomingDropped env m₁ es' m₂ → m₂.timers = m.timers := by
        intro m₁ m₂ es es' hout hin
        cases hout <;> cases hin <;> rfl
      have hstop := served_receive h .cancelAll
      rw [← hkept hout hin] at hstop
      exact hstop
  | _ => exact h

theorem served_run (capacity : Nat) (timeout : Duration) (policy : Policy)
    (occasions : List (Surroundings × Message)) :
    ((Machine.fresh capacity timeout policy).run occasions).machine.timers.Served :=
  (run_keeps (I := fun _ m => m.timers.Served) (fun _ h => h) (fun _ _ h ho => served_outcome h ho)
    occasions (consistent_fresh capacity timeout policy) ⟨[], rfl⟩).2

/-- **An expiry that cannot be claimed is as good as none.** -/
theorem handle_stale (env : Surroundings) (hq : Queued m)
    (hstale : m.timers.generation? d ≠ some g) :
    m.handle env (.timeout d g) = { machine := m } := by
  cases hrun : m.stopped with
  | true => exact handle_stopped _ hrun
  | false =>
      have hnothing : Turn.process env { machine := m } (.timeout d g) = { machine := m } := by
        rw [Turn.process, Turn.expire, Timers.claim?_of_stale hstale]
      rw [Machine.handle, if_neg (by simp [hrun]), hnothing]
      exact replay_of_patient (t := { machine := m }) (hq.patient hrun)

/-- **Timers are acted on once.** Whatever the timers are called upon to do, generations are
handed out in ascending order, over all devices, and every start hands out one, which is live
from then on; a claim succeeds exactly as long as its generation is live; and no generation is
claimed twice. The timers of a machine are such, and an expiry in any but the live generation
changes nothing of the machine, asks nothing of the stack and is told to nobody. -/
theorem expiries_count_once :
    (∀ calls : List Timers.Call,
      (Timers.handedOut calls {}).Pairwise (· < ·)
        ∧ (∀ d duration, ∃ g, (Timers.run calls {}).handsOut? (.start d duration) = some g
            ∧ Timers.Live (calls ++ [.start d duration]) d g)
        ∧ (∀ d g, ((Timers.run calls {}).claim? d g).isSome = true ↔ Timers.Live calls d g)
        ∧ (Timers.claimed calls {}).Nodup)
      ∧ ∀ (capacity : Nat) (timeout : Duration) (policy : Policy)
          (occasions : List (Surroundings × Message)),
          let m := ((Machine.fresh capacity timeout policy).run occasions).machine
          (∃ calls, m.timers = Timers.run calls {})
            ∧ ∀ (env : Surroundings) (d : Address) (g : Nat),
                m.timers.generation? d ≠ some g →
                  m.handle env (.timeout d g) = { machine := m } := by
  refine ⟨fun calls => ⟨Timers.handedOut_ascending calls {}, Timers.live_of_start calls,
    fun d g => ?_, Timers.claimed_nodup calls Timers.distinct_new⟩, ?_⟩
  · rw [Timers.claim?_isSome, Timers.generation?_run]
  · intro capacity timeout policy occasions m
    have hq : Queued m := queued_run capacity timeout policy occasions
    exact ⟨served_run capacity timeout policy occasions, fun env d g => handle_stale env hq⟩

end Machine

end AudioLink
