import Mathlib.Data.List.Induction
import AudioLink.Controller
import AudioLink.Proofs.Seniority
import AudioLink.Proofs.Slots

/-!
# The listing of devices by their link states

The host asks for the devices whose link is in one of some states. The answer is put together
from two sources that know nothing of each other: the roles of the snapshot and the bonds of
the registry. That nobody is listed twice, or under a state of somebody else, rests on the roles
fitting each other (`Snapshot.Fits`), which they do in every snapshot of a machine; a device in
a role is never disconnected, so the bonds only add devices that no role knows of.
-/

namespace AudioLink

variable {d : Address} {states : List LinkState}

/-! ## The bonds after some updates -/

/-- Octets are compared one after the other, and the first that differ decide. -/
theorem Address.lt_of_compare {xs ys : List UInt8} (h : compare xs ys = .lt) : xs < ys := by
  induction xs generalizing ys with
  | nil =>
      cases ys with
      | nil => cases h
      | cons y ys => exact List.nil_lt_cons y ys
  | cons x xs ih =>
      cases ys with
      | nil => cases h
      | cons y ys =>
          rw [List.compare_eq_compareLex, List.compareLex_cons_cons, Ordering.then_eq_lt] at h
          rw [List.cons_lt_cons_iff]
          rcases h with h | ⟨h, hrest⟩
          · exact Or.inl (Std.compare_eq_lt.mp h)
          · exact Or.inr ⟨Std.LawfulEqCmp.eq_of_compare h, ih hrest⟩

namespace Registry

/-- What can be changed in a registry. -/
inductive Update where
  | bond (d : Address) (bonded : Bool)
  | priority (d : Address) (p : Priority)
  /-- A device is bonded and given a priority at once. -/
  | device (d : Address) (p : Priority)

/-- The registry after an update. -/
def update (r : Registry) : Update → Registry
  | .bond d bonded => r.setBonded d bonded
  | .priority d p => r.setPriority d p
  | .device d p => r.addDevice d p

/-- The registry after some updates of an empty one. -/
def after (updates : List Update) : Registry :=
  updates.foldl update {}

/-- What an update says of the bond of a device, if anything. -/
def Update.bond? (d : Address) : Update → Option Bool
  | .bond e bonded => if e = d then some bonded else none
  | .priority .. => none
  | .device e _ => if e = d then some true else none

/-- What was said last of the bond of a device. -/
def latestBond? (d : Address) (updates : List Update) : Option Bool :=
  (updates.filterMap (·.bond? d)).getLast?

theorem bonded_ascending_octets (r : Registry) :
    r.bonded.Pairwise fun a b => a.octets < b.octets :=
  r.bonded_ascending.imp Address.lt_of_compare

theorem isBonded_update (r : Registry) (u : Update) (d : Address) :
    (r.update u).isBonded d = (u.bond? d).getD (r.isBonded d) := by
  cases u with
  | bond e bonded =>
      rw [update, isBonded_setBonded, Update.bond?]
      split <;> rfl
  | priority e p => rfl
  | device e p =>
      rw [update, addDevice, isBonded_setPriority, isBonded_setBonded, Update.bond?]
      split <;> rfl

/-- A device is bonded if the latest word on it says so. -/
theorem isBonded_after (updates : List Update) (d : Address) :
    (after updates).isBonded d = true ↔ latestBond? d updates = some true := by
  induction updates using List.reverseRecOn with
  | nil => simp [after, latestBond?, isBonded]
  | append_singleton updates u ih =>
      have hafter : after (updates ++ [u]) = (after updates).update u := List.foldl_concat ..
      rw [hafter, isBonded_update, latestBond?, List.filterMap_append]
      cases hbond : u.bond? d with
      | none =>
          rw [List.filterMap_cons_none hbond, List.filterMap_nil, List.append_nil]
          exact ih
      | some bonded =>
          rw [List.filterMap_cons_some hbond, List.filterMap_nil, List.getLast?_concat,
            Option.getD_some, Option.some_inj]

end Registry

/-! ## Who holds a role in a snapshot -/

namespace Snapshot

variable {s : Snapshot}

/-- The device is linked, or a link to or from it is being brought up or taken down. -/
def HoldsRole (s : Snapshot) (d : Address) : Prop :=
  d ∈ s.members ∨ s.outgoing = some d ∨ s.incoming = some d ∨ s.leaving = some d

/-- The members, then the device that a link is brought up to, then the one that brings one up
itself. -/
def ranked (s : Snapshot) : List Address :=
  s.members ++ s.outgoing.toList ++ s.incoming.toList

/-- Nobody holds two roles, but for the member that leaves. -/
structure Fits (s : Snapshot) : Prop where
  nodup : s.ranked.Nodup
  leaving_member : ∀ {d}, s.leaving = some d → d ∈ s.members

/-- Whoever holds no role is disconnected, and nobody else. -/
theorem linkState_eq_disconnected : s.linkState d = .disconnected ↔ ¬ s.HoldsRole d := by
  unfold linkState HoldsRole
  by_cases hleave : s.leaving = some d
  · simp [hleave]
  by_cases hmember : d ∈ s.members
  · simp [hleave, hmember]
  by_cases hlinking : s.outgoing = some d ∨ s.incoming = some d
  · simp [hleave, hmember, hlinking]
  · simp [hleave, hmember, hlinking]

theorem holdsRole_iff (h : s.Fits) : s.HoldsRole d ↔ d ∈ s.ranked := by
  have hleave : s.leaving = some d → d ∈ s.members := h.leaving_member
  simp only [HoldsRole, ranked, List.mem_append, Option.mem_toList, or_assoc]
  tauto

theorem withRole_of_mem {devices : List Address} (hd : d ∈ devices) :
    withRole devices (some d) = devices :=
  if_pos hd

theorem withRole_of_disjoint {devices : List Address} {role : Option Address}
    (h : (devices ++ role.toList).Nodup) : withRole devices role = devices ++ role.toList := by
  cases role with
  | none => exact (List.append_nil _).symm
  | some d => exact if_neg fun hd => (List.nodup_append.mp h).2.2 d hd d (by simp) rfl

/-- The roles are gone through in order, and nobody is met twice. -/
theorem known_eq_ranked (h : s.Fits) : s.known = s.ranked := by
  have hlinking : (s.members ++ s.outgoing.toList).Nodup := (List.nodup_append.mp h.nodup).1
  rw [known, List.foldl_cons, List.foldl_cons, List.foldl_cons, List.foldl_nil,
    withRole_of_disjoint hlinking, withRole_of_disjoint h.nodup]
  cases hleave : s.leaving with
  | none => rfl
  | some d =>
      have hmember : d ∈ s.members := h.leaving_member hleave
      exact withRole_of_mem (List.mem_append_left _ (List.mem_append_left _ hmember))

theorem matching_eq (h : s.Fits) (states : List LinkState) :
    s.matching states = s.ranked.filter (s.linkState · ∈ states) := by
  rw [matching, known_eq_ranked h]

/-- The bonded devices that a listing adds. -/
def added (s : Snapshot) (bonded : List Address) (states : List LinkState) : List Address :=
  if .disconnected ∈ states then bonded.filter (s.linkState · = .disconnected) else []

theorem mem_added {bonded : List Address} :
    d ∈ s.added bonded states
      ↔ .disconnected ∈ states ∧ d ∈ bonded ∧ s.linkState d = .disconnected := by
  unfold added
  split
  · next hasked => simp [hasked]
  · next hasked => simp [hasked]

theorem added_ascending {bonded : List Address}
    (h : bonded.Pairwise fun a b => a.octets < b.octets) :
    (s.added bonded states).Pairwise fun a b => a.octets < b.octets := by
  unfold added
  split
  · exact h.filter _
  · exact List.Pairwise.nil

/-- A listing is what the roles tell, and then what the bonds add to it. -/
theorem matchingAmong_eq (h : s.Fits) (bonded : List Address) (states : List LinkState) :
    s.matchingAmong bonded states
      = s.ranked.filter (s.linkState · ∈ states) ++ s.added bonded states := by
  rw [matchingAmong, matching_eq h, added]
  split
  · refine congrArg _ (List.filter_congr fun d _ => ?_)
    -- whoever is disconnected holds no role, so was not listed for one
    have hnew : s.linkState d = .disconnected → d ∉ s.ranked := fun hd =>
      mt (holdsRole_iff h).mpr (linkState_eq_disconnected.mp hd)
    simp only [decide_eq_decide, List.mem_filter]
    tauto
  · exact (List.append_nil _).symm

end Snapshot

/-- The roles of a snapshot fit each other as those of the machine do. -/
theorem Orderly.fits_snapshot {m : Machine} (h : Orderly m) : m.snapshot.Fits where
  nodup := by
    have hperm : m.holders.Perm m.snapshot.ranked := by
      have hswap : (m.incoming.toList ++ m.members).Perm (m.members ++ m.incoming.toList) :=
        List.perm_append_comm
      refine (hswap.append_left _).trans ?_
      rw [← List.append_assoc]
      exact List.perm_append_comm.append_right _
    exact hperm.nodup h.nodup_holders
  leaving_member := h.leaving_member

/-! ## The listing -/

/-- **Every device in one of the states is listed, once, and no other.** The host looks at the
snapshot of a machine after any run and at a registry after any updates. A device is listed
exactly if the state of its link is among those asked for, and it holds a role or what was said
last of its bond is that there is one. First come the devices in a role: the members in the order
of their latest admissions, then the device linked to and the one that links. The bonded devices
that are disconnected follow, in the ascending order of their octets. -/
theorem listing_is_exact (capacity : Nat) (timeout : Duration) (policy : Policy)
    (occasions : List (Surroundings × Message)) (updates : List Registry.Update)
    (states : List LinkState) (c : Controller) :
    let start := Machine.fresh capacity timeout policy
    let s := (start.run occasions).machine.snapshot
    let host : Controller := { c with
      registry := Registry.after updates
      publisher := { c.publisher with published := s } }
    let listed := host.matching states
    (∀ d, d ∈ listed ↔ s.linkState d ∈ states
        ∧ (s.HoldsRole d ∨ Registry.latestBond? d updates = some true))
      ∧ listed.Nodup
      ∧ s.members.Sublist (start.admissions occasions).dedup
      ∧ ∃ rest, listed
            = (s.members ++ s.outgoing.toList ++ s.incoming.toList).filter
                (s.linkState · ∈ states) ++ rest
          ∧ (∀ d ∈ rest, s.linkState d = .disconnected
              ∧ Registry.latestBond? d updates = some true)
          ∧ rest.Pairwise fun a b => a.octets < b.octets := by
  intro start s host listed
  have hfits : s.Fits := (consistent_run capacity timeout policy occasions).fits_snapshot
  have hlisted : listed = s.ranked.filter (s.linkState · ∈ states)
      ++ s.added (Registry.after updates).bonded states :=
    Snapshot.matchingAmong_eq hfits _ states
  have hbonded : ∀ d, d ∈ (Registry.after updates).bonded
      ↔ Registry.latestBond? d updates = some true := fun d =>
    Registry.mem_bonded.trans (Registry.isBonded_after updates d)
  have hdisjoint : ∀ d ∈ s.ranked, d ∉ s.added (Registry.after updates).bonded states := by
    intro d hd hadded
    have hstate := (Snapshot.mem_added.mp hadded).2.2
    exact Snapshot.linkState_eq_disconnected.mp hstate ((Snapshot.holdsRole_iff hfits).mpr hd)
  have hascending : (s.added (Registry.after updates).bonded states).Pairwise
      fun a b => a.octets < b.octets :=
    Snapshot.added_ascending (Registry.after updates).bonded_ascending_octets
  refine ⟨fun d => ?_, ?_, ordered_run capacity timeout policy occasions, _, hlisted, ?_,
    hascending⟩
  · rw [hlisted, List.mem_append, List.mem_filter, Snapshot.mem_added, hbonded,
      ← Snapshot.holdsRole_iff hfits, decide_eq_true_iff]
    constructor
    · rintro (⟨hrole, hstate⟩ | ⟨hasked, hbond, hstate⟩)
      · exact ⟨hstate, Or.inl hrole⟩
      · exact ⟨hstate ▸ hasked, Or.inr hbond⟩
    · rintro ⟨hstate, hwhy⟩
      by_cases hrole : s.HoldsRole d
      · exact Or.inl ⟨hrole, hstate⟩
      · -- no role, so it is the bond that it is listed for
        have hdisc := Snapshot.linkState_eq_disconnected.mpr hrole
        exact Or.inr ⟨hdisc ▸ hstate, hwhy.resolve_left hrole, hdisc⟩
  · rw [hlisted, List.nodup_append]
    refine ⟨hfits.nodup.filter _, hascending.imp fun {a b} hlt heq => ?_, fun a ha b hb hab => ?_⟩
    · exact List.lt_irrefl b.octets (heq ▸ hlt)
    · exact hdisjoint a (List.mem_of_mem_filter ha) (hab ▸ hb)
  · intro d hd
    obtain ⟨-, hd, hstate⟩ := Snapshot.mem_added.mp hd
    exact ⟨hstate, (hbonded d).mp hd⟩

/-- A member that is on its way out is listed as leaving, not as disconnected, though it is
bonded; a device whose bond was taken back is not listed any more. -/
example :
    let env := ({} : ScriptedStack).surroundings ({} : Registry).facts
    let first := Address.of 0 0 0 0 0 1
    let second := Address.of 0 0 0 0 0 2
    let third := Address.of 0 0 0 0 0 3
    let s := ((Machine.fresh 3 (.ofMillis 30000) ⟨false⟩).run
      [(env, .request (.connect third)), (env, .event (.link third .connected)),
        (env, .request (.disconnect third))]).machine.snapshot
    let r := Registry.after [.device third .on, .device second .on, .device first .on,
      .bond second false]
    s.matchingAmong r.bonded [.disconnected, .disconnecting] = [third, first]
      ∧ s.matchingAmong r.bonded [.disconnected] = [first]
      ∧ s.matchingAmong r.bonded [.connected] = [] := by
  decide +kernel

end AudioLink
