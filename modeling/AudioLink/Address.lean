import Std.Data.ExtTreeMap
import Std.Data.ExtTreeSet

/-!
# Device addresses

A device is known by six octets. Addresses are ordered by their octets, the first
octet deciding first, and every listing of addresses that is not in order of
admission is in this order. Facts about devices are kept in maps and sets that are
equal exactly when they hold the same entries.
-/

namespace AudioLink

/-- The six octets by which a device is known. -/
structure Address where
  octets : List UInt8
  length_octets : octets.length = 6
deriving DecidableEq, Repr

namespace Address

/-- The address with the given octets, first to last. -/
def of (a b c d e f : UInt8) : Address :=
  ⟨[a, b, c, d, e, f], rfl⟩

instance : Inhabited Address := ⟨of 0 0 0 0 0 0⟩

theorem octets_injective {a b : Address} (h : a.octets = b.octets) : a = b := by
  cases a; cases b; cases h; rfl

/-! ## Order -/

instance : Ord Address := ⟨fun a b => compare a.octets b.octets⟩

instance : Std.TransOrd Address where
  eq_swap {a b} := Std.OrientedCmp.eq_swap (a := a.octets) (b := b.octets)
  isLE_trans {a b c} h₁ h₂ :=
    Std.TransCmp.isLE_trans (a := a.octets) (b := b.octets) (c := c.octets) h₁ h₂

instance : Std.LawfulEqOrd Address where
  eq_of_compare h := octets_injective (Std.LawfulEqCmp.eq_of_compare h)

/-- The addresses in ascending order, repetitions kept. -/
def sort (addresses : List Address) : List Address :=
  addresses.mergeSort fun a b => (compare a b).isLE

end Address

/-- One value for each of finitely many devices. -/
abbrev AddressMap (α : Type) : Type := Std.ExtTreeMap Address α

abbrev AddressSet : Type := Std.ExtTreeSet Address

end AudioLink
