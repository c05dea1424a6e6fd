import AudioLink.Proofs.Slots
import AudioLink.Stack.Scripted

/-!
# How a machine ends

A machine that is told to end gives up the links that are being brought up, and nothing else:
members stay as they are, also the one on its way out. The stack is told of every link that it
was asked for or that a peer began, but not of one that still waited for a member to go, since
it never heard of that. Listeners are told of all of them.

After that the machine is deaf. What it was when it ended is what it stays.
-/

namespace AudioLink

variable {env : Surroundings} {m m₁ m₂ : Machine} {d : Address} {es es' : List Effect}

/-- The devices whose link is being brought up, the one that the machine links to first. -/
def Roles.linking (r : Roles) : List Address :=
  r.outgoingDevice.toList ++ r.incoming.toList

/-- The device that the stack was asked to link to. A link that waits for a member to go was
not asked for yet. -/
def Roles.requestedDevice (r : Roles) : Option Address :=
  match r.outgoing with
  | some ⟨d, .requested⟩ => some d
  | some ⟨_, .awaitingEviction _⟩ | none => none

/-- Those whose link the stack knows of. -/
def Roles.negotiated (r : Roles) : List Address :=
  r.requestedDevice.toList ++ r.incoming.toList

/-- What becomes of the formats when some devices are given up. -/
def Machine.Forgets (devices : List Address) (m m' : Machine) : Prop :=
  ∀ d, m'.formats[d]? = if d ∈ devices then none else m.formats[d]?

theorem forgets_nil : m.Forgets [] m := fun _ => by simp

theorem forgets_erase {m' : Machine} (h : m'.formats = m.formats.erase d) : m.Forgets [d] m' := by
  intro e
  simp only [h, Std.ExtTreeMap.getElem?_erase, Std.LawfulEqCmp.compare_eq_iff_eq,
    List.mem_singleton, eq_comm (a := d)]

theorem forgets_append {devices devices' : List Address} (h : m.Forgets devices m₁)
    (h' : m₁.Forgets devices' m₂) : m.Forgets (devices ++ devices') m₂ := by
  intro e
  rw [h' e, h e]
  by_cases he : e ∈ devices <;> by_cases he' : e ∈ devices' <;> simp [he, he']

/-! ## The two links that are given up -/

/-- What ending the links to some devices does: which of them the stack is asked to take down,
who is told, and what is forgotten. -/
structure GivesUp (asked told : List Address) (m : Machine) (es : List Effect) (m' : Machine) :
    Prop where
  calls : es.filterMap Effect.call? = asked.map fun d => .request (.disconnect d)
  notices : es.filterMap Effect.notice? = told.map fun d => .link d .connecting .disconnected
  formats : m.Forgets told m'

theorem givesUp_append {asked told asked' told' : List Address} (h : GivesUp asked told m es m₁)
    (h' : GivesUp asked' told' m₁ es' m₂) :
    GivesUp (asked ++ asked') (told ++ told') m (es ++ es') m₂ where
  calls := by rw [List.filterMap_append, h.calls, h'.calls, List.map_append]
  notices := by rw [List.filterMap_append, h.notices, h'.notices, List.map_append]
  formats := forgets_append h.formats h'.formats

/-- The outgoing link is given up, and nothing else changes. -/
theorem givesUp_outgoing (h : OutgoingDropped env m es m₁) :
    GivesUp m.requestedDevice.toList m.outgoingDevice.toList m es m₁
      ∧ m₁ = { m with outgoing := none, formats := m₁.formats } := by
  cases h with
  | absent hout =>
      have hdevice : m.outgoingDevice = none := by rw [Roles.outgoingDevice, hout]; rfl
      rw [hdevice, Roles.requestedDevice, hout]
      exact ⟨⟨rfl, rfl, forgets_nil⟩, by rw [← hout]⟩
  | awaiting hout | requested hout =>
      rw [Roles.outgoingDevice_eq hout, Roles.requestedDevice, hout]
      exact ⟨⟨rfl, rfl, forgets_erase rfl⟩, rfl⟩

/-- The incoming link is given up, and nothing else changes. -/
theorem givesUp_incoming (h : IncomingDropped env m es m₁) :
    GivesUp m.incoming.toList m.incoming.toList m es m₁
      ∧ m₁ = { m with incoming := none, formats := m₁.formats } := by
  cases h with
  | absent hin =>
      refine ⟨?_, by rw [← hin]⟩
      rw [hin]
      exact ⟨rfl, rfl, forgets_nil⟩
  | present hin =>
      rw [hin]
      exact ⟨⟨rfl, rfl, forgets_erase rfl⟩, rfl⟩

/-! ## The end -/

/-- A machine at work that is told to end gives up the links that are being brought up. -/
theorem handle_shutdown (env : Surroundings) (hc : Consistent m) (hrun : m.stopped = false) :
    let t := m.handle env .shutdown
    GivesUp m.negotiated m.linking m t.effects t.machine
      ∧ t.machine = { m with
          outgoing := none, incoming := none, formats := t.machine.formats
          timers := m.timers.cancelAll, deferred := [], stopped := true } := by
  obtain ⟨es, m₁, rs, es', m₂, heq, ho, hr⟩ := handle_cases env .shutdown hc hrun
  cases ho with
  | nothing h => cases h
  | @stopped es₁ es₂ n₁ n₂ hout hin =>
      -- nothing waits any more, so nothing is carried out after the message
      cases hr with
      | next hrun' => cases hrun'
      | idle | busy =>
          obtain ⟨hgone, hn₁⟩ := givesUp_outgoing hout
          obtain ⟨hgone', hn₂⟩ := givesUp_incoming hin
          have hsame : n₁.incoming = m.incoming := by rw [hn₁]
          rw [hsame] at hgone'
          rw [heq, List.append_nil]
          have hboth := givesUp_append hgone hgone'
          refine ⟨⟨hboth.calls, hboth.notices, hboth.formats⟩, ?_⟩
          rw [Machine.stop, hn₂, hn₁]

/-- A machine that has ended does nothing any more. -/
theorem run_stopped (later : List (Surroundings × Message)) (hstop : m.stopped = true) :
    m.run later = { machine := m } := by
  refine run_induction (P := fun t => t = { machine := m }) later rfl ?_
  rintro t env msg rfl
  rw [handle_stopped msg hstop]
  rfl

/-- The device of a link that is being brought up is no member. -/
theorem not_linking (h : Orderly m) (hd : d ∈ m.members) : d ∉ m.linking := by
  obtain ⟨hout, hin⟩ := h.not_inFlight hd
  simp [Roles.linking, hout, hin]

/-- **A machine that is told to end settles what is in flight, once and for all.** The stack is
asked to take down the outgoing link, if it was asked for it, and then the incoming one, and
nothing else; listeners are told that the outgoing link is down, and then the incoming one, and
nothing else. Both are given up, their formats are forgotten, no timer is armed and nothing
waits; all else is as it was. From then on no message does anything. -/
theorem ending_settles_for_good (capacity : Nat) (timeout : Duration) (policy : Policy)
    (occasions : List (Surroundings × Message)) (env : Surroundings) :
    let m := ((Machine.fresh capacity timeout policy).run occasions).machine
    let t := m.handle env .shutdown
    m.stopped = false →
      t.calls = m.negotiated.map (fun d => .request (.disconnect d))
        ∧ t.notices = m.linking.map (fun d => .link d .connecting .disconnected)
        ∧ t.machine = { m with
            outgoing := none, incoming := none, formats := t.machine.formats
            timers := m.timers.cancelAll, deferred := [], stopped := true }
        ∧ (∀ d, t.machine.timers.generation? d = none)
        ∧ (∀ d, t.machine.formats[d]? = if d ∈ m.linking then none else m.formats[d]?)
        ∧ (∀ d ∈ m.members, t.machine.formats[d]? = m.formats[d]?)
        ∧ ∀ later, t.machine.run later = { machine := t.machine } := by
  intro m t hrun
  have hc : Consistent m := consistent_run capacity timeout policy occasions
  obtain ⟨hgone, hmachine⟩ := handle_shutdown env hc hrun
  refine ⟨hgone.calls, hgone.notices, hmachine, fun d => ?_, hgone.formats, fun d hd => ?_,
    fun later => run_stopped later ?_⟩
  · rw [hmachine]
    exact Timers.generation?_cancelAll d m.timers
  · rw [hgone.formats d, if_neg (not_linking hc.toOrderly hd)]
  · rw [hmachine]

/-- A link is being brought up, a peer has begun another, whose format is known, and a third
is waited for. The machine ends, and is asked for the third again. -/
theorem ending_settles_two_links :
    let first := Address.of 0 0 0 0 0 1
    let second := Address.of 0 0 0 0 0 2
    let third := Address.of 0 0 0 0 0 3
    let env := ({} : ScriptedStack).surroundings (Registry.setPriority second .on {}).facts
    let m := ((Machine.fresh 2 (.ofMillis 30000) ⟨false⟩).run
      [(env, .request (.connect first)), (env, .event (.link second .connecting)),
        (env, .event (.format second ⟨44100, 2⟩)), (env, .request (.connect third))]).machine
    let t := m.handle env .shutdown
    m.stopped = false ∧ m.deferred = [.connect third]
      ∧ t.calls = [.request (.disconnect first), .request (.disconnect second)]
      ∧ t.notices = [.link first .connecting .disconnected, .link second .connecting .disconnected]
      ∧ t.machine.deferred = [] ∧ t.machine.formats[second]? = none
      ∧ t.machine.run [(env, .request (.connect third))] = { machine := t.machine } := by
  intro first second third env m t
  have hrun : m.stopped = false := by decide +kernel
  have hasked : m.negotiated = [first, second] := by decide +kernel
  have hlinking : m.linking = [first, second] := by decide +kernel
  obtain ⟨hcalls, hnotices, hmachine, -, hformats, -, hfinal⟩ :=
    ending_settles_for_good 2 (.ofMillis 30000) ⟨false⟩ _ env hrun
  refine ⟨hrun, by decide +kernel, ?_, ?_, by rw [hmachine], ?_, hfinal _⟩
  · rw [hcalls, hasked]
    rfl
  · rw [hnotices, hlinking]
    rfl
  · rw [hformats, if_pos (by rw [hlinking]; simp)]

end AudioLink
