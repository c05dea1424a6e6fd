import AudioLink.Proofs.Run

/-!
# A machine and its stack

So far the stack was anything that answers. Here it is one that keeps its word: what it
accepts it carries out, and it reports what it carried out in a mailbox that the machine
empties from the front. Peers bring links up and drop them as they please, the host asks
for what it wants and timers expire, in any order and between any two deliveries.

A `Tandem` is the machine together with the links that are up below it and the mailbox
between the two. What the mailbox holds of a device comes down to one thing, its
`promised` state: what the last report about the link will have told, once delivered.
-/

namespace AudioLink

variable {d e : Address} {msg : Message} {mail rest : List Message}

/-- Whether the request is for the link to be up, or down. -/
def Request.wanted : Request → Bool
  | .connect _ => true
  | .disconnect _ => false

namespace Message

/-- The device about whose link the message reports. -/
def reported? : Message → Option Address
  | event (.link d _) => some d
  | event (.stream ..) | event (.format ..) | event (.permission _) => none
  | request _ | timeout .. | shutdown => none

/-- Whether the message reports the link to the device up, or down. -/
def verdict? (d : Address) : Message → Option Bool
  | event (.link e .connected) => if e = d then some true else none
  | event (.link e .disconnected) => if e = d then some false else none
  | _ => none

theorem verdict?_eq_none (h : msg.reported? = none) : msg.verdict? d = none := by
  unfold reported? at h
  split at h
  · simp at h
  all_goals rfl

theorem eq_of_verdict? {up : Bool} (h : msg.verdict? d = some up) :
    msg = event (.link d (if up then .connected else .disconnected)) := by
  unfold verdict? at h
  split at h
  · obtain ⟨rfl, hup⟩ := Option.ite_none_right_eq_some.mp h
    cases hup
    rfl
  · obtain ⟨rfl, hup⟩ := Option.ite_none_right_eq_some.mp h
    cases hup
    rfl
  · simp at h

@[simp] theorem verdict?_confirmation (r : Request) :
    (event r.confirmation).verdict? d
      = if r.device = d then some r.wanted else none := by
  cases r <;> rfl

end Message

/-! ## Promises -/

/-- What the last report about the link to the device says, if one is on its way. -/
def promised (d : Address) (mail : List Message) : Option Bool :=
  (mail.filterMap (Message.verdict? d)).getLast?

@[simp] theorem promised_nil (d : Address) : promised d [] = none := rfl

theorem promised_append (d : Address) (mail mail' : List Message) :
    promised d (mail ++ mail') = (promised d mail').or (promised d mail) := by
  simp [promised, List.getLast?_append]

theorem promised_singleton (d : Address) (msg : Message) :
    promised d [msg] = msg.verdict? d := by
  rw [promised, List.filterMap_cons, List.filterMap_nil]
  cases msg.verdict? d <;> rfl

theorem promised_cons (d : Address) (msg : Message) (rest : List Message) :
    promised d (msg :: rest) = (promised d rest).or (msg.verdict? d) := by
  rw [← List.singleton_append, promised_append, promised_singleton]

/-- Where no report is on its way, nothing is promised. -/
theorem promised_eq_none (h : ∀ msg ∈ mail, msg.reported? = none) : promised d mail = none := by
  have hnone : mail.filterMap (Message.verdict? d) = [] :=
    List.filterMap_eq_nil_iff.mpr fun msg hmsg => Message.verdict?_eq_none (h msg hmsg)
  rw [promised, hnone]
  rfl

/-- Whoever is reported to be bringing a link up is reported up or down later on. -/
def Redeemed : List Message → Prop
  | [] => True
  | msg :: rest =>
    (∀ d, msg = .event (.link d .connecting) → promised d rest ≠ none) ∧ Redeemed rest

theorem redeemed_append {mail mail' : List Message} (h : Redeemed mail) (h' : Redeemed mail') :
    Redeemed (mail ++ mail') := by
  induction mail with
  | nil => exact h'
  | cons msg rest ih =>
      refine ⟨fun d hd hnone => ?_, ih h.2⟩
      have hnone : promised d (rest ++ mail') = none := hnone
      rw [promised_append] at hnone
      exact h.1 d hd (Option.or_eq_none_iff.mp hnone).2

theorem redeemed_of_forall (h : ∀ msg ∈ mail, ∀ d, msg ≠ .event (.link d .connecting)) :
    Redeemed mail := by
  induction mail with
  | nil => trivial
  | cons msg rest ih =>
      refine ⟨fun d hd => absurd hd (h msg List.mem_cons_self d), ih fun msg' hmsg' => ?_⟩
      exact h msg' (List.mem_cons_of_mem _ hmsg')

/-! ## The machine above its stack -/

/-- The machine, the links that are up below it, and what it has not been told yet. -/
structure Tandem where
  machine : Machine
  links : AddressSet := ∅
  mailbox : List Message := []

namespace Tandem

/-- The stack carries out a request that it has accepted, and reports it. -/
def carryOut (p : Tandem) (r : Request) : Tandem :=
  { p with
    links := if r.wanted then p.links.insert r.device else p.links.erase r.device
    mailbox := p.mailbox ++ [.event r.confirmation] }

/-- The machine handles a message, and the stack carries out what it accepts meanwhile. -/
def handle (env : Surroundings) (msg : Message) (p : Tandem) : Tandem :=
  let t := p.machine.handle env msg
  (t.effects.filterMap Effect.accepted?).foldl carryOut { p with machine := t.machine }

/-- The machine handles the message that has waited longest, if there is one. -/
def deliver (env : Surroundings) (p : Tandem) : Tandem :=
  match p.mailbox with
  | [] => p
  | msg :: rest => { p with mailbox := rest }.handle env msg

/-- Messages join the mailbox. -/
def post (mail : List Message) (p : Tandem) : Tandem :=
  { p with mailbox := p.mailbox ++ mail }

/-- A peer brings its link up. The stack may report first that it is about to. -/
def comeUp (d : Address) (announced : Bool) (p : Tandem) : Tandem :=
  post ((if announced then [.event (.link d .connecting)] else []) ++ [.event (.link d .connected)])
    { p with links := p.links.insert d }

/-- A peer drops its link. -/
def drop (d : Address) (p : Tandem) : Tandem :=
  post [.event (.link d .disconnected)] { p with links := p.links.erase d }

end Tandem

/-- The stack takes down every link that it is asked to take down. -/
def Surroundings.Cooperative (env : Surroundings) : Prop :=
  ∀ n d, env.accepts n (.disconnect d) = true

/-- One thing that can happen to a machine and a cooperative stack. The host, the timers and
the reports about streams may reach the machine past the mailbox or through it. -/
inductive Tandem.Step (p : Tandem) : Tandem → Prop where
  | work {env : Surroundings} (msg : Message) (henv : env.Cooperative)
      (hmsg : msg.reported? = none) (hrun : msg ≠ .shutdown) : Step p (p.handle env msg)
  | deliver {env : Surroundings} (henv : env.Cooperative) : Step p (p.deliver env)
  | post (msg : Message) (hmsg : msg.reported? = none) (hrun : msg ≠ .shutdown) :
      Step p (p.post [msg])
  | comeUp (d : Address) (announced : Bool) : Step p (p.comeUp d announced)
  | drop (d : Address) : Step p (p.drop d)

/-- What can come of a new machine above a stack without links. -/
inductive Tandem.Reachable (capacity : Nat) (timeout : Duration) (policy : Policy) :
    Tandem → Prop where
  | start : Reachable capacity timeout policy { machine := .fresh capacity timeout policy }
  | step {p p' : Tandem} (hp : Reachable capacity timeout policy p) (hs : p.Step p') :
      Reachable capacity timeout policy p'

namespace Tandem

variable {p : Tandem} {r : Request} {rs : List Request}

/-! ## What is carried out is promised -/

/-- A device of which something is promised has the link that is promised. -/
def Faithful (d : Address) (p : Tandem) : Prop :=
  ∀ up, promised d p.mailbox = some up → (d ∈ p.links ↔ up = true)

theorem promised_carryOut : promised d (p.carryOut r).mailbox
    = if r.device = d then some r.wanted else promised d p.mailbox := by
  simp only [carryOut, promised_append, promised_singleton, Message.verdict?_confirmation]
  split
  · rfl
  · exact Option.none_or

theorem mem_links_carryOut : d ∈ (p.carryOut r).links
    ↔ if r.device = d then r.wanted = true else d ∈ p.links := by
  by_cases hd : r.device = d
  · cases h : r.wanted <;> simp [carryOut, h, hd]
  · cases h : r.wanted <;> simp [carryOut, h, hd]

theorem faithful_carryOut (h : Faithful d p) : Faithful d (p.carryOut r) := by
  intro up hup
  rw [promised_carryOut] at hup
  rw [mem_links_carryOut]
  by_cases hd : r.device = d
  · rw [if_pos hd] at hup ⊢
    rw [Option.some.inj hup]
  · rw [if_neg hd] at hup ⊢
    exact h up hup

@[simp] theorem machine_foldl (rs : List Request) (p : Tandem) :
    (rs.foldl carryOut p).machine = p.machine := by
  induction rs generalizing p with
  | nil => rfl
  | cons r rest ih => exact ih (p.carryOut r)

theorem machine_handle (env : Surroundings) (msg : Message) (p : Tandem) :
    (p.handle env msg).machine = (p.machine.handle env msg).machine :=
  machine_foldl _ _

theorem mailbox_foldl (rs : List Request) (p : Tandem) :
    (rs.foldl carryOut p).mailbox = p.mailbox ++ rs.map (.event ·.confirmation) := by
  induction rs generalizing p with
  | nil => simp
  | cons r rest ih => simp [ih, carryOut]

theorem faithful_foldl (rs : List Request) (h : Faithful d p) :
    Faithful d (rs.foldl carryOut p) := by
  induction rs generalizing p with
  | nil => exact h
  | cons r rest ih => exact ih (faithful_carryOut h)

/-- Where nothing is promised in the end, nothing was, and nothing has been carried out. -/
theorem unpromised_foldl (rs : List Request)
    (hnone : promised d (rs.foldl carryOut p).mailbox = none) :
    promised d p.mailbox = none ∧ (∀ r ∈ rs, r.device ≠ d)
      ∧ (d ∈ (rs.foldl carryOut p).links ↔ d ∈ p.links) := by
  induction rs generalizing p with
  | nil => exact ⟨hnone, by simp, Iff.rfl⟩
  | cons r rest ih =>
      obtain ⟨hfirst, hrest, hlinks⟩ := ih hnone
      -- what is carried out about the device is promised, and stays so
      have hd : r.device ≠ d := fun hd => by
        rw [promised_carryOut, if_pos hd] at hfirst
        simp at hfirst
      rw [promised_carryOut, if_neg hd] at hfirst
      rw [mem_links_carryOut, if_neg hd] at hlinks
      exact ⟨hfirst, List.forall_mem_cons.mpr ⟨hd, hrest⟩, hlinks⟩

end Tandem

end AudioLink
