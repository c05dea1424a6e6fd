import Mathlib.Data.Nat.Digits.Defs
import AudioLink.Proofs.Canonical
import AudioLink.Text.Numeral

/-!
# Numerals in settings

What a setting holds is read without the blanks around it. A text that has no blanks of its own
is found between blanks exactly if it is what is left by trimming (`exists_padded_iff`), so that
what is read can be told without saying how it is trimmed. A count is then a numeral to the base
ten below a limit, and nothing else is read (`numeral?_eq_some_iff`).
-/

namespace AudioLink.Text

/-! ## Blanks -/

variable {front core text back : List Char} {value limit : Nat}

/-- The text is `core` with nothing but blanks around it. -/
def IsPadded (core text : List Char) : Prop :=
  ∃ front back, text = front ++ core ++ back ∧ ∀ c ∈ front ++ back, isBlank c = true

theorem trim_padded (hblank : ∀ c ∈ front ++ back, isBlank c = true) :
    trim (front ++ text ++ back) = trim text := by
  obtain ⟨hfront, hback⟩ := List.forall_mem_append.mp hblank
  rw [trim, List.append_assoc, List.dropWhile_append_of_pos hfront, List.dropWhile_append]
  split
  · next hempty =>
      rw [List.dropWhile_eq_nil_iff.mpr hback, trim, List.isEmpty_iff.mp hempty]
  · rw [List.reverse_append,
      List.dropWhile_append_of_pos fun c hc => hback c (List.mem_reverse.mp hc), trim]

/-- What is found between the blanks around a text is what is left when it is trimmed. -/
theorem exists_padded_iff {P : List Char → Prop}
    (hP : ∀ core, P core → ∀ c ∈ core, isBlank c = false) :
    (∃ core, IsPadded core text ∧ P core) ↔ P (trim text) := by
  constructor
  · rintro ⟨core, ⟨front, back, rfl, hblank⟩, hcore⟩
    rwa [trim_padded hblank, trim_of_no_blank (hP core hcore)]
  · intro hcore
    exact ⟨trim text, (trim_spec text).1, hcore⟩

/-- Blanks have no small form, so that none is lost in small letters. -/
theorem toLower_of_isBlank {c : Char} (h : isBlank c = true) : c.toLower = c := by
  refine dif_neg ?_
  rintro ⟨hlow, hhigh⟩
  have hlow : 65 ≤ c.toNat := hlow
  have hhigh : c.toNat ≤ 90 := hhigh
  simp only [isBlank, blankRanges, List.any_cons, List.any_nil, Bool.or_false, Bool.or_eq_true,
    Bool.and_eq_true, decide_eq_true_eq] at h
  omega

/-! ## Digits -/

/-- The text is the value in decimal digits, of which there is one at least. -/
def IsDigits (value : Nat) (text : List Char) : Prop :=
  ∃ digits : List Nat, digits ≠ [] ∧ (∀ d ∈ digits, d < 10) ∧ text = digits.map Nat.digitChar
    ∧ value = Nat.ofDigits 10 digits.reverse

/-- The text is the value in decimal digits, a plus sign before them or none. -/
def IsNumeral (value : Nat) (text : List Char) : Prop :=
  IsDigits value text ∨ ∃ rest, text = '+' :: rest ∧ IsDigits value rest

theorem digitValue?_eq_some_iff {c : Char} {d : Nat} :
    digitValue? c = some d ↔ d < 10 ∧ c = Nat.digitChar d := by
  constructor
  · intro h
    unfold digitValue? at h
    split at h
    · next hc =>
        obtain rfl := Option.some.inj h
        have hdigits : ∀ n < 10, Char.ofNat ('0'.toNat + n) = Nat.digitChar n := by decide
        have hlow : '0'.toNat ≤ c.toNat := hc.1
        have hhigh : c.toNat ≤ '0'.toNat + 9 := hc.2
        have hlt : c.toNat - '0'.toNat < 10 := by omega
        have hdigit := hdigits _ hlt
        rw [Nat.add_sub_cancel' hlow, Char.ofNat_toNat] at hdigit
        exact ⟨hlt, hdigit⟩
    · cases h
  · rintro ⟨hd, rfl⟩
    revert d
    decide

theorem digitsFrom?_eq_some_iff {before : Nat} :
    digitsFrom? before text = some value ↔
      ∃ digits : List Nat, (∀ d ∈ digits, d < 10) ∧ text = digits.map Nat.digitChar
        ∧ value = digits.foldl (fun v d => 10 * v + d) before := by
  induction text generalizing before with
  | nil =>
      constructor
      · intro h
        exact ⟨[], fun _ h => absurd h List.not_mem_nil, rfl, (Option.some.inj h).symm⟩
      · rintro ⟨digits, -, htext, rfl⟩
        obtain rfl := List.map_eq_nil_iff.mp htext.symm
        rfl
  | cons c text ih =>
      rw [digitsFrom?, Option.bind_eq_some_iff]
      constructor
      · rintro ⟨d, hd, hrest⟩
        obtain ⟨hlt, rfl⟩ := digitValue?_eq_some_iff.mp hd
        obtain ⟨digits, hdigits, rfl, rfl⟩ := ih.mp hrest
        exact ⟨d :: digits, List.forall_mem_cons.mpr ⟨hlt, hdigits⟩, rfl, rfl⟩
      · rintro ⟨digits, hdigits, htext, rfl⟩
        cases digits with
        | nil => cases htext
        | cons d digits =>
            obtain ⟨rfl, rfl⟩ := List.cons.inj htext
            obtain ⟨hlt, hdigits⟩ := List.forall_mem_cons.mp hdigits
            exact ⟨d, digitValue?_eq_some_iff.mpr ⟨hlt, rfl⟩, ih.mpr ⟨digits, hdigits, rfl, rfl⟩⟩

/-- Digits read from the left make the value they have to the base ten. -/
theorem foldl_eq_ofDigits (digits : List Nat) :
    digits.foldl (fun v d => 10 * v + d) 0 = Nat.ofDigits 10 digits.reverse := by
  rw [Nat.ofDigits_eq_foldr, List.foldr_reverse]
  simp only [Nat.add_comm, Nat.cast_id]

theorem digits?_eq_some_iff : digits? text = some value ↔ IsDigits value text := by
  cases text with
  | nil =>
      constructor
      · intro h
        cases h
      · rintro ⟨digits, hne, -, htext, -⟩
        exact absurd (List.map_eq_nil_iff.mp htext.symm) hne
  | cons c text =>
      change digitsFrom? 0 (c :: text) = some value ↔ _
      rw [digitsFrom?_eq_some_iff]
      constructor
      · rintro ⟨digits, hdigits, htext, hvalue⟩
        refine ⟨digits, ?_, hdigits, htext, hvalue.trans (foldl_eq_ofDigits digits)⟩
        rintro rfl
        cases htext
      · rintro ⟨digits, -, hdigits, htext, hvalue⟩
        exact ⟨digits, hdigits, htext, hvalue.trans (foldl_eq_ofDigits digits).symm⟩

theorem forall_mem_of_isDigits {P : Char → Prop} (h : IsDigits value text)
    (hdigits : ∀ d < 10, P (Nat.digitChar d)) : ∀ c ∈ text, P c := by
  obtain ⟨digits, -, hlt, rfl, -⟩ := h
  intro c hc
  obtain ⟨d, hd, rfl⟩ := List.mem_map.mp hc
  exact hdigits d (hlt d hd)

theorem isBlank_of_isNumeral (h : IsNumeral value text) : ∀ c ∈ text, isBlank c = false := by
  rcases h with h | ⟨rest, rfl, h⟩
  · exact forall_mem_of_isDigits h (by decide)
  · exact List.forall_mem_cons.mpr ⟨by decide, forall_mem_of_isDigits h (by decide)⟩

theorem numeral?_eq_some_iff :
    numeral? limit text = some value ↔ IsNumeral value text ∧ value < limit := by
  have hread : ∀ digits : List Char, (digits? digits).filter (· < limit) = some value
      ↔ IsDigits value digits ∧ value < limit := by
    intro digits
    rw [Option.filter_eq_some_iff, decide_eq_true_eq, digits?_eq_some_iff]
  unfold numeral?
  split
  · next rest =>
      -- no digit is a plus sign
      have hsign : ¬IsDigits value ('+' :: rest) := fun h =>
        forall_mem_of_isDigits (P := (· ≠ '+')) h (by decide) '+' List.mem_cons_self rfl
      refine (hread rest).trans (and_congr_left fun _ => ?_)
      simp [IsNumeral, hsign]
  · next hsign =>
      refine (hread text).trans (and_congr_left fun _ => ?_)
      constructor
      · exact Or.inl
      · rintro (h | ⟨rest, rfl, -⟩)
        · exact h
        · exact absurd rfl (hsign rest)

/-- A text is a numeral of one value. -/
theorem IsNumeral.unique {value' : Nat} (h : IsNumeral value text) (h' : IsNumeral value' text) :
    value = value' := by
  have hread := numeral?_eq_some_iff.mpr ⟨h, show value < value + value' + 1 by omega⟩
  have hread' := numeral?_eq_some_iff.mpr ⟨h', show value' < value + value' + 1 by omega⟩
  exact Option.some.inj (hread.symm.trans hread')

end AudioLink.Text
