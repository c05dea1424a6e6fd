import Mathlib.Data.List.DropRight
import Mathlib.Data.List.Forall2
import Mathlib.Algebra.BigOperators.Group.List.Basic
import Mathlib.Data.String.Basic
import Mathlib.Tactic.IntervalCases
import AudioLink.Address.Text

/-!
# The grammar of addresses

An address is six pairs of hexadecimal digits with a separator between any two. The reader
counts bytes, cuts at separators and looks at one piece after the other, so what it says of
a text that is no address depends on where it stops.

The length in bytes settles more than it seems to. A separator takes one byte, so in a text of
seventeen bytes the pieces, each with the separator behind it, make eighteen (`sum_pieces`).
Pieces of two bytes are then six of them, neither more nor less: the reader never gets to a
seventh piece, and never runs out of them before the sixth.
-/

namespace AudioLink

/-- Reading one after the other succeeds with what each of them is read as. -/
theorem mapM_eq_some_iff {α β : Type} {read : α → Option β} {as : List α} {bs : List β} :
    as.mapM read = some bs ↔ List.Forall₂ (fun a b => read a = some b) as bs := by
  induction as generalizing bs with
  | nil =>
      rw [List.mapM_nil, List.forall₂_nil_left_iff]
      exact Option.some_inj.trans eq_comm
  | cons a as ih =>
      rw [List.mapM_cons]
      constructor
      · intro h
        obtain ⟨b, hb, h⟩ := Option.bind_eq_some_iff.mp h
        obtain ⟨rest, hrest, h⟩ := Option.bind_eq_some_iff.mp h
        obtain rfl := Option.some.inj h
        exact .cons hb (ih.mp hrest)
      · rintro (_ | ⟨hb, hrest⟩)
        rw [hb, ih.mpr hrest]
        rfl

/-! ## Text -/

namespace Text

/-- The text is parted from the blanks around it. -/
theorem trim_spec (cs : List Char) :
    (∃ front back, cs = front ++ trim cs ++ back ∧ ∀ c ∈ front ++ back, isBlank c = true)
      ∧ ∀ c, (trim cs).head? = some c ∨ (trim cs).getLast? = some c → isBlank c = false := by
  let rest := cs.dropWhile isBlank
  have htrim : trim cs = rest.rdropWhile isBlank := rfl
  refine ⟨⟨cs.takeWhile isBlank, rest.rtakeWhile isBlank, ?_, ?_⟩, ?_⟩
  · rw [List.append_assoc, htrim, List.rdropWhile_append_rtakeWhile,
      List.takeWhile_append_dropWhile]
  · intro c hc
    rcases List.mem_append.mp hc with hc | hc
    · exact List.mem_takeWhile_imp hc
    · exact List.mem_rtakeWhile_imp hc
  · intro c hc
    rcases hc with hc | hc
    · -- what is cut off at the end leaves the first character alone
      have hhead : rest.head? = some c := by
        obtain ⟨back, hback⟩ := List.rdropWhile_prefix isBlank rest
        rw [← hback, List.head?_append, ← htrim, hc]
        rfl
      have hfirst := List.head?_dropWhile_not isBlank cs
      rw [show cs.dropWhile isBlank = rest from rfl, hhead] at hfirst
      exact hfirst
    · obtain ⟨hne, rfl⟩ := List.mem_getLast?_eq_getLast hc
      exact eq_false_of_ne_true (List.rdropWhile_last_not isBlank rest hne)

theorem pieces_eq_splitOnP (isSeparator : Char → Bool) (cs : List Char) :
    pieces isSeparator cs = cs.splitOnP isSeparator := by
  induction cs with
  | nil => rfl
  | cons c cs ih =>
      rw [List.splitOnP_cons_eq_if_modifyHead, ← ih, pieces]
      cases hpieces : pieces isSeparator cs with
      | nil => exact absurd hpieces (pieces_ne_nil isSeparator cs)
      | cons piece rest => rfl

theorem utf8ByteSize_ofList (cs : List Char) :
    (String.ofList cs).utf8ByteSize = byteLength cs := by
  rw [String.utf8ByteSize_ofList]
  induction cs with
  | nil => rfl
  | cons c cs ih => rw [String.utf8Len_cons, ih, byteLength_cons, Nat.add_comm]

/-- The pieces, with one byte for what ends each of them, are as long as the text and its end. -/
theorem sum_pieces {isSeparator : Char → Bool}
    (hsep : ∀ c, isSeparator c = true → c.utf8Size = 1) (cs : List Char) :
    ((pieces isSeparator cs).map fun piece => byteLength piece + 1).sum = byteLength cs + 1 := by
  induction cs with
  | nil => rfl
  | cons c cs ih =>
      rw [pieces]
      by_cases hc : isSeparator c = true
      · have hone := hsep c hc
        rw [if_pos hc, List.map_cons, List.sum_cons, ih, byteLength_cons, byteLength_nil]
        omega
      · rw [if_neg hc]
        cases hpieces : pieces isSeparator cs with
        | nil => exact absurd hpieces (pieces_ne_nil isSeparator cs)
        | cons piece rest =>
            simp only [hpieces, List.map_cons, List.sum_cons, byteLength_cons] at ih ⊢
            omega

end Text

namespace Address

/-! ## Digits and octets -/

/-- The character is the hexadecimal digit of the value, small or capital. -/
def IsHexDigit (value : Nat) (c : Char) : Prop :=
  value < 16 ∧ (c = Nat.digitChar value ∨ c = (Nat.digitChar value).toUpper)

/-- The piece is two hexadecimal digits, and the octet what they say to the base sixteen. -/
def Denotes (piece : List Char) (octet : UInt8) : Prop :=
  ∃ high low h l, piece = [high, low] ∧ IsHexDigit h high ∧ IsHexDigit l low
    ∧ octet.toNat = 16 * h + l

variable {c : Char} {value : Nat} {piece part : List Char} {before after parts : List (List Char)}
  {o : UInt8}

/-- What can be said of each digit is shown of the sixteen small and the sixteen capital ones. -/
theorem IsHexDigit.elim {P : Nat → Char → Prop} (h : IsHexDigit value c)
    (hdigits : ∀ v < 16, P v (Nat.digitChar v) ∧ P v (Nat.digitChar v).toUpper) : P value c := by
  obtain ⟨hlt, rfl | rfl⟩ := h
  · exact (hdigits value hlt).1
  · exact (hdigits value hlt).2

theorem utf8Size_hexDigit (h : IsHexDigit value c) : c.utf8Size = 1 :=
  h.elim (P := fun _ c => c.utf8Size = 1) (by decide)

instance : Decidable (IsHexDigit value c) :=
  inferInstanceAs (Decidable (_ ∧ _))

/-- A run of characters are digits if each of them is. -/
theorem IsHexDigit.of_between {first last : Char} {base : Nat}
    (hall : ∀ n ≤ last.toNat - first.toNat, IsHexDigit (n + base) (Char.ofNat (first.toNat + n)))
    (hc : first ≤ c ∧ c ≤ last) : IsHexDigit (c.toNat - first.toNat + base) c := by
  have hfirst : first.toNat ≤ c.toNat := hc.1
  have hlast : c.toNat ≤ last.toNat := hc.2
  have hdigit := hall (c.toNat - first.toNat) (by omega)
  rwa [Nat.add_sub_cancel' hfirst, Char.ofNat_toNat] at hdigit

theorem hexValue?_eq_some_iff : hexValue? c = some value ↔ IsHexDigit value c := by
  constructor
  · intro h
    unfold hexValue? at h
    split at h
    · next hc =>
        obtain rfl := Option.some.inj h
        exact @IsHexDigit.of_between c '0' '9' 0 (by decide) hc
    split at h
    · next hc =>
        obtain rfl := Option.some.inj h
        exact IsHexDigit.of_between (by decide) hc
    split at h
    · next hc =>
        obtain rfl := Option.some.inj h
        exact IsHexDigit.of_between (by decide) hc
    · cases h
  · intro h
    exact h.elim (P := fun v c => hexValue? c = some v) (by decide)

theorem byteLength_of_denotes (h : Denotes piece o) : Text.byteLength piece = 2 := by
  obtain ⟨high, low, _, _, rfl, hhigh, hlow, _⟩ := h
  simp [utf8Size_hexDigit hhigh, utf8Size_hexDigit hlow]

theorem octet_eq_ok_iff : octet piece = .ok o ↔ Denotes piece o := by
  constructor
  · intro h
    unfold octet at h
    split at h
    · cases h
    split at h
    · next high low hvalues =>
        obtain _ | ⟨hhigh, _ | ⟨hlow, _ | _⟩⟩ := mapM_eq_some_iff.mp hvalues
        have hhigh := hexValue?_eq_some_iff.mp hhigh
        have hlow := hexValue?_eq_some_iff.mp hlow
        refine ⟨_, _, high, low, rfl, hhigh, hlow, ?_⟩
        have hoctet := Except.ok.inj h
        have hbound : 16 * high + low < 256 := by have := hhigh.1; have := hlow.1; omega
        rw [← hoctet, UInt8.toNat_ofNat_of_lt' hbound]
    · cases h
  · intro hpiece
    have hbytes := byteLength_of_denotes hpiece
    obtain ⟨high, low, h, l, rfl, hhigh, hlow, hvalue⟩ := hpiece
    have hvalues : [high, low].mapM hexValue? = some [h, l] := mapM_eq_some_iff.mpr
      (.cons (hexValue?_eq_some_iff.mpr hhigh) (.cons (hexValue?_eq_some_iff.mpr hlow) .nil))
    rw [octet, if_neg (not_not.mpr hbytes), hvalues]
    simp only [← hvalue, UInt8.ofNat_toNat]

/-- A piece that is no octet is too long, too short, or not made of digits. -/
theorem octet_eq_error (h : ∀ o, ¬Denotes piece o) :
    octet piece = .error (if Text.byteLength piece = 2 then .notHex piece else .width) := by
  cases hpiece : octet piece with
  | ok o => exact absurd (octet_eq_ok_iff.mp hpiece) (h o)
  | error fault =>
      unfold octet at hpiece
      split at hpiece
      · next hbytes => rw [if_neg hbytes]; exact hpiece.symm
      · next hbytes =>
          rw [if_pos (not_not.mp hbytes)]
          split at hpiece
          · cases hpiece
          · exact hpiece.symm

/-! ## Pieces -/

/-- All of the pieces are octets. -/
def AllOctets (parts : List (List Char)) : Prop :=
  ∀ part ∈ parts, ∃ o, Denotes part o

theorem octetsOf_eq_ok {count : Nat} {octets : List UInt8}
    (h : List.Forall₂ Denotes parts octets) (hcount : octets.length = count) :
    octetsOf count parts = .ok ⟨octets, hcount⟩ := by
  induction h generalizing count with
  | nil => subst hcount; rfl
  | cons hpart _ ih =>
      subst hcount
      simp only [List.length_cons, octetsOf, octet_eq_ok_iff.mpr hpart, ih rfl]

/-- The leftmost piece that is no octet decides. -/
theorem octetsOf_eq_error {count : Nat} {fault : Fault} (hbefore : AllOctets before)
    (hroom : before.length < count) (hpart : octet part = .error fault) :
    octetsOf count (before ++ part :: after) = .error fault := by
  induction before generalizing count with
  | nil =>
      obtain ⟨count, rfl⟩ : ∃ n, count = n + 1 := ⟨count - 1, by simp at hroom; omega⟩
      rw [List.nil_append, octetsOf, hpart]
  | cons first before ih =>
      obtain ⟨count, rfl⟩ : ∃ n, count = n + 1 := ⟨count - 1, by simp at hroom; omega⟩
      obtain ⟨o, ho⟩ := hbefore first List.mem_cons_self
      have hrest := ih (fun p hp => hbefore p (List.mem_cons_of_mem first hp))
        (Nat.lt_of_succ_lt_succ hroom)
      rw [List.cons_append, octetsOf, octet_eq_ok_iff.mpr ho, hrest]

/-- Octets take three bytes each, with the byte that ends them. -/
theorem sum_of_octets (h : AllOctets parts) :
    (parts.map fun part => Text.byteLength part + 1).sum = 3 * parts.length := by
  induction parts with
  | nil => rfl
  | cons part parts ih =>
      obtain ⟨o, ho⟩ := h part List.mem_cons_self
      rw [List.map_cons, List.sum_cons, byteLength_of_denotes ho,
        ih fun p hp => h p (List.mem_cons_of_mem part hp), List.length_cons]
      omega

theorem isSeparator_iff : isSeparator c = true ↔ c = ':' ∨ c = '-' := by
  simp [isSeparator]

theorem utf8Size_separator (h : isSeparator c = true) : c.utf8Size = 1 := by
  rcases isSeparator_iff.mp h with rfl | rfl <;> rfl

/-- Either every piece is an octet, or there is a leftmost one that is none. -/
theorem octets_or_fault (parts : List (List Char)) :
    AllOctets parts
      ∨ ∃ before part after, parts = before ++ part :: after ∧ AllOctets before
          ∧ ∀ o, ¬Denotes part o := by
  induction parts with
  | nil => exact Or.inl fun _ h => absurd h List.not_mem_nil
  | cons part parts ih =>
      by_cases hpart : ∃ o, Denotes part o
      · rcases ih with hall | ⟨before, fault, after, rfl, hbefore, hfault⟩
        · exact Or.inl (List.forall_mem_cons.mpr ⟨hpart, hall⟩)
        · exact Or.inr ⟨part :: before, fault, after, rfl,
            List.forall_mem_cons.mpr ⟨hpart, hbefore⟩, hfault⟩
      · exact Or.inr ⟨[], part, parts, rfl, fun _ h => absurd h List.not_mem_nil,
          not_exists.mp hpart⟩

theorem allOctets_iff : AllOctets parts ↔ ∃ octets, List.Forall₂ Denotes parts octets := by
  constructor
  · intro h
    induction parts with
    | nil => exact ⟨[], .nil⟩
    | cons part parts ih =>
        obtain ⟨⟨o, ho⟩, hrest⟩ := List.forall_mem_cons.mp h
        obtain ⟨octets, hoctets⟩ := ih hrest
        exact ⟨o :: octets, .cons ho hoctets⟩
  · rintro ⟨octets, h⟩
    induction h with
    | nil => exact fun _ h => absurd h List.not_mem_nil
    | cons hpart _ ih => exact List.forall_mem_cons.mpr ⟨⟨_, hpart⟩, ih⟩

/-! ## Texts of seventeen bytes -/

variable {text : List Char}

/-- A piece that the reader comes to is one of the first six. -/
theorem length_before_lt (htext : Text.byteLength text = 17)
    (hparts : Text.pieces isSeparator text = before ++ part :: after)
    (hbefore : AllOctets before) : before.length < 6 := by
  have hsum := Text.sum_pieces (fun _ => utf8Size_separator) text
  rw [hparts, htext, List.map_append, List.sum_append, sum_of_octets hbefore, List.map_cons,
    List.sum_cons] at hsum
  omega

theorem length_of_octets (htext : Text.byteLength text = 17)
    (h : AllOctets (Text.pieces isSeparator text)) :
    (Text.pieces isSeparator text).length = 6 := by
  have hsum := Text.sum_pieces (fun _ => utf8Size_separator) text
  rw [htext, sum_of_octets h] at hsum
  omega

theorem parseTrimmed_eq_ok (htext : Text.byteLength text = 17)
    (h : AllOctets (Text.pieces isSeparator text)) :
    ∃ a, parseTrimmed text = .ok a
      ∧ List.Forall₂ Denotes (Text.pieces isSeparator text) a.octets := by
  obtain ⟨octets, hoctets⟩ := allOctets_iff.mp h
  have hsix : octets.length = 6 := hoctets.length_eq.symm.trans (length_of_octets htext h)
  refine ⟨⟨octets, hsix⟩, ?_, hoctets⟩
  rw [parseTrimmed, if_neg (not_not.mpr htext), octetsOf_eq_ok hoctets hsix]

theorem parseTrimmed_eq_error (htext : Text.byteLength text = 17)
    (hparts : Text.pieces isSeparator text = before ++ part :: after)
    (hbefore : AllOctets before) (hpart : ∀ o, ¬Denotes part o) :
    parseTrimmed text = .error (if Text.byteLength part = 2 then .notHex (String.ofList part)
      else .malformed (String.ofList text)) := by
  have hroom := length_before_lt htext hparts hbefore
  rw [parseTrimmed, if_neg (not_not.mpr htext), hparts,
    octetsOf_eq_error hbefore hroom (octet_eq_error hpart)]
  by_cases hwidth : Text.byteLength part = 2
  · simp only [if_pos hwidth, Fault.report]
  · simp only [if_neg hwidth, Fault.report]

/-- Neither a piece too many nor one too few is ever what is wrong. -/
theorem octetsOf_ne_miscount (htext : Text.byteLength text = 17) :
    octetsOf 6 (Text.pieces isSeparator text) ≠ .error .surplus
      ∧ octetsOf 6 (Text.pieces isSeparator text) ≠ .error .missing := by
  rcases octets_or_fault (Text.pieces isSeparator text) with
    hall | ⟨before, part, after, hparts, hbefore, hpart⟩
  · obtain ⟨octets, hoctets⟩ := allOctets_iff.mp hall
    rw [octetsOf_eq_ok hoctets (hoctets.length_eq.symm.trans (length_of_octets htext hall))]
    simp
  · have hroom := length_before_lt htext hparts hbefore
    rw [hparts, octetsOf_eq_error hbefore hroom (octet_eq_error hpart)]
    split <;> simp

/-- A text is refused for its length exactly if that is not the length of an address. -/
theorem parseTrimmed_eq_length_iff {n : Nat} :
    parseTrimmed text = .error (.length n) ↔ Text.byteLength text = n ∧ n ≠ 17 := by
  unfold parseTrimmed
  constructor
  · intro h
    split at h
    · next hlength =>
        obtain rfl := ParseError.length.inj (Except.error.inj h)
        exact ⟨rfl, hlength⟩
    · split at h
      · cases h
      · next fault _ => cases fault <;> cases h
  · rintro ⟨rfl, hlength⟩
    rw [if_pos hlength]

/-- **A text is read by the grammar of addresses, and refused for what is first wrong with it.**
Only the blanks around it are ignored. Its length is looked at first. Of a text of seventeen
bytes the leftmost piece that is no octet decides: the text is malformed if that piece is not
two bytes long, and the piece not hexadecimal if it is, whatever character the two bytes make.
If every piece is an octet there are six of them, and they are the address. The reader comes to
no piece but the first six, and what it finds wrong is never their number. -/
theorem parse_follows_grammar (s : String) :
    let text := Text.trim s.toList
    let parts := text.splitOnP isSeparator
    ((∃ front back, s.toList = front ++ text ++ back
          ∧ ∀ c ∈ front ++ back, Text.isBlank c = true)
        ∧ ∀ c, text.head? = some c ∨ text.getLast? = some c → Text.isBlank c = false)
      ∧ (∀ n, parse s = .error (.length n) ↔ (String.ofList text).utf8ByteSize = n ∧ n ≠ 17)
      ∧ ((String.ofList text).utf8ByteSize = 17 →
        (∀ before part after, parts = before ++ part :: after → AllOctets before →
            before.length < 6
              ∧ ((∀ o, ¬Denotes part o) →
                parse s = .error (if (String.ofList part).utf8ByteSize = 2
                  then .notHex (String.ofList part) else .malformed (String.ofList text))))
          ∧ (AllOctets parts →
            parts.length = 6 ∧ ∃ a, parse s = .ok a ∧ List.Forall₂ Denotes parts a.octets)
          ∧ octetsOf 6 parts ≠ .error .surplus ∧ octetsOf 6 parts ≠ .error .missing) := by
  intro text parts
  have hparts : Text.pieces isSeparator text = parts := Text.pieces_eq_splitOnP isSeparator text
  rw [Text.utf8ByteSize_ofList, ← hparts]
  refine ⟨Text.trim_spec s.toList, fun n => parseTrimmed_eq_length_iff, fun htext => ?_⟩
  refine ⟨fun before part after hcut hbefore => ⟨length_before_lt htext hcut hbefore, ?_⟩,
    fun hall => ⟨length_of_octets htext hall, parseTrimmed_eq_ok htext hall⟩,
    octetsOf_ne_miscount htext⟩
  intro hpart
  rw [Text.utf8ByteSize_ofList]
  exact parseTrimmed_eq_error htext hcut hbefore hpart

/-- A character of two bytes makes a piece that is wide enough and not hexadecimal. -/
example : parse "00:1A-7D:DA:71:é" = .error (.notHex "é") := by
  cbv

end Address

end AudioLink
