import AudioLink.Proofs.Run

/-!
# The roles after every message

`Consistent` is the form of the invariant that the proofs use. Here it is read off for the
machine after every run: who can hold which role, which stage goes with which member on
its way out, and of whom anything is kept.
-/

namespace AudioLink

/-- The devices that hold the roles of a link, the two that are coming up first. -/
def Roles.holders (r : Roles) : List Address :=
  r.outgoingDevice.toList ++ (r.incoming.toList ++ r.members)

/-- Nobody is linking, being linked to and a member at once, nor a member twice. -/
theorem Orderly.nodup_holders {m : Machine} (h : Orderly m) : m.holders.Nodup := by
  have hrest : (m.incoming.toList ++ m.members).Nodup := by
    cases hin : m.incoming with
    | none => simpa using h.nodup
    | some d => simpa using ⟨h.incoming_fresh hin, h.nodup⟩
  unfold Roles.holders
  cases hout : m.outgoingDevice with
  | none => simpa using hrest
  | some d =>
      obtain ⟨hd, hin⟩ := h.outgoing_fresh hout
      simpa [hd] using ⟨hin, hrest⟩

theorem consistent_run (capacity : Nat) (timeout : Duration) (policy : Policy)
    (occasions : List (Surroundings × Message)) :
    Consistent ((Machine.fresh capacity timeout policy).run occasions).machine :=
  (run_keeps (I := fun _ _ => True) (fun _ h => h) (fun _ _ h _ => h) occasions
    (consistent_fresh capacity timeout policy) trivial).1

/-- **The roles fit each other after every message**, whatever the capacity, the answers of
the stack and the facts about devices. -/
theorem roles_fit_after_every_message (capacity : Nat) (timeout : Duration) (policy : Policy)
    (occasions : List (Surroundings × Message)) :
    let m := ((Machine.fresh capacity timeout policy).run occasions).machine
    m.members.Nodup
      ∧ m.holders.Nodup
      ∧ (∀ d, m.leaving = some d → d ∈ m.members)
      ∧ (∀ d v, m.outgoing = some ⟨d, .awaitingEviction v⟩ → m.leaving = some v)
      ∧ (∀ d, m.outgoing = some ⟨d, .requested⟩ → m.leaving = none)
      ∧ (m.primary = none ↔ m.members = [])
      ∧ (∀ d, m.primary = some d → d ∈ m.members)
      ∧ (∀ d, d ∈ m.playing → d ∈ m.members)
      ∧ (∀ d, d ∈ m.formats →
          d ∈ m.members ∨ m.outgoingDevice = some d ∨ m.incoming = some d) := by
  intro m
  have h : Consistent m := consistent_run capacity timeout policy occasions
  refine ⟨h.nodup, h.nodup_holders, fun _ => h.leaving_member, fun _ _ => h.awaiting,
    fun _ => h.requested, ⟨h.primary_exists, ?_⟩, fun _ => h.primary_member,
    fun _ => h.playing_member, fun _ => h.format_held⟩
  intro hempty
  cases hp : m.primary with
  | none => rfl
  | some d =>
      have hd := h.primary_member hp
      rw [hempty] at hd
      exact absurd hd (by simp)

end AudioLink
