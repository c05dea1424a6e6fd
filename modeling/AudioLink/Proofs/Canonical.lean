import AudioLink.Proofs.Grammar

/-!
# The written form of an address

An address is read from many texts and written in one way. Writing and reading are put
together here from both ends: the written form is cut into exactly the octets it was written
from (`pieces_chars`), and the pieces of a text that was read are, in capitals and with colons
between them, what would be written (`text_of_parse`).
-/

namespace AudioLink

namespace Text

variable {isSeparator : Char → Bool} {cs : List Char}

theorem trim_of_no_blank (h : ∀ c ∈ cs, isBlank c = false) : trim cs = cs := by
  have hkeep : ∀ ds : List Char, (∀ c ∈ ds, isBlank c = false) → ds.dropWhile isBlank = ds := by
    intro ds hds
    cases ds with
    | nil => rfl
    | cons d ds => exact List.dropWhile_cons_of_neg (by simp [hds d List.mem_cons_self])
  exact trim_eq_self (hkeep cs h) (hkeep cs.reverse fun c hc => h c (List.mem_reverse.mp hc))

/-- What is put together with separators is cut where they stand. -/
theorem pieces_intercalate {mark : Char} (hmark : isSeparator mark = true)
    {parts : List (List Char)} (hne : parts ≠ [])
    (hparts : ∀ part ∈ parts, ∀ c ∈ part, isSeparator c = false) :
    pieces isSeparator ([mark].intercalate parts) = parts := by
  rw [pieces_eq_splitOnP]
  induction parts with
  | nil => exact absurd rfl hne
  | cons part parts ih =>
      have hpart := hparts part List.mem_cons_self
      cases parts with
      | nil => simp [List.splitOnP_eq_singleton hpart]
      | cons next rest =>
          have hrest := ih (by simp) fun p hp => hparts p (List.mem_cons_of_mem part hp)
          rw [List.intercalate_cons_cons, List.append_assoc, List.singleton_append,
            List.splitOnP_append_cons_of_forall_mem hpart mark hmark, hrest]

/-- Pieces put together again give the text, with one mark for every separator. -/
theorem intercalate_pieces (isSeparator : Char → Bool) (mark : Char) (f : Char → Char)
    (cs : List Char) :
    [mark].intercalate ((pieces isSeparator cs).map (List.map f))
      = cs.map fun c => if isSeparator c then mark else f c := by
  induction cs with
  | nil => rfl
  | cons c cs ih =>
      rw [pieces, List.map_cons]
      obtain ⟨piece, rest, hpieces⟩ := List.exists_cons_of_ne_nil (pieces_ne_nil isSeparator cs)
      rw [hpieces] at ih ⊢
      by_cases hc : isSeparator c = true
      · rw [if_pos hc, if_pos hc, ← ih, List.map_cons, List.map_cons, List.intercalate_cons_cons]
        rfl
      · rw [if_neg hc, if_neg hc, ← ih]
        cases rest with
        | nil => simp
        | cons next rest => simp [List.intercalate_cons_cons]

/-- A character of the text separates two pieces, or stands in one. -/
theorem mem_pieces {c : Char} (hc : c ∈ cs) :
    isSeparator c = true ∨ ∃ piece ∈ pieces isSeparator cs, c ∈ piece := by
  induction cs with
  | nil => cases hc
  | cons d cs ih =>
      obtain ⟨piece, rest, hpieces⟩ := List.exists_cons_of_ne_nil (pieces_ne_nil isSeparator cs)
      by_cases hd : isSeparator d = true
      · rw [pieces, if_pos hd]
        rcases List.mem_cons.mp hc with rfl | hc
        · exact Or.inl hd
        rcases ih hc with hsep | ⟨p, hp, hcp⟩
        · exact Or.inl hsep
        · exact Or.inr ⟨p, List.mem_cons_of_mem _ hp, hcp⟩
      · rw [hpieces] at ih
        rw [pieces, if_neg hd, hpieces]
        rcases List.mem_cons.mp hc with rfl | hc
        · exact Or.inr ⟨c :: piece, List.mem_cons_self, List.mem_cons_self⟩
        rcases ih hc with hsep | ⟨p, hp, hcp⟩
        · exact Or.inl hsep
        -- the character joins the first piece and leaves the others as they are
        rcases List.mem_cons.mp hp with rfl | hp
        · exact Or.inr ⟨d :: p, List.mem_cons_self, List.mem_cons_of_mem d hcp⟩
        · exact Or.inr ⟨p, List.mem_cons_of_mem _ hp, hcp⟩

end Text

namespace Address

variable {s : String} {a : Address} {c : Char} {value : Nat} {piece : List Char} {o : UInt8}

/-! ## Writing and reading back -/

theorem isHexDigit_hexDigit {v : Nat} (h : v < 16) : IsHexDigit v (hexDigit v) := by
  revert v
  decide

theorem denotes_octetDigits (o : UInt8) : Denotes (octetDigits o) o := by
  have hlt := o.toNat_lt_size
  rw [UInt8.size] at hlt
  exact ⟨_, _, o.toNat / 16, o.toNat % 16, rfl, isHexDigit_hexDigit (by omega),
    isHexDigit_hexDigit (by omega), by omega⟩

theorem isSeparator_of_denotes (h : Denotes piece o) (hc : c ∈ piece) : isSeparator c = false := by
  obtain ⟨high, low, _, _, rfl, hhigh, hlow, _⟩ := h
  have hdigit : ∀ {v d}, IsHexDigit v d → isSeparator d = false := fun h =>
    h.elim (P := fun _ d => isSeparator d = false) (by decide)
  simp only [List.mem_cons, List.not_mem_nil, or_false] at hc
  rcases hc with rfl | rfl
  · exact hdigit hhigh
  · exact hdigit hlow

theorem pieces_chars (a : Address) :
    Text.pieces isSeparator a.chars = a.octets.map octetDigits := by
  have hne : a.octets.map octetDigits ≠ [] := by
    intro h
    have hlength := congrArg List.length h
    rw [List.length_map, a.length_octets] at hlength
    cases hlength
  refine Text.pieces_intercalate rfl hne fun piece hpiece c hc => ?_
  obtain ⟨o, -, rfl⟩ := List.mem_map.mp hpiece
  exact isSeparator_of_denotes (denotes_octetDigits o) hc

theorem denotes_chars (a : Address) :
    List.Forall₂ Denotes (Text.pieces isSeparator a.chars) a.octets := by
  rw [pieces_chars, List.forall₂_map_left_iff, List.forall₂_same]
  exact fun o _ => denotes_octetDigits o

theorem byteLength_chars (a : Address) : Text.byteLength a.chars = 17 := by
  have hsum := Text.sum_pieces (fun _ => utf8Size_separator) a.chars
  rw [sum_of_octets (allOctets_iff.mpr ⟨_, a.denotes_chars⟩), pieces_chars, List.length_map,
    a.length_octets] at hsum
  omega

/-- Nothing but separators and digits is read. -/
theorem forall_mem_of_allOctets {P : Char → Prop} {text : List Char}
    (h : AllOctets (Text.pieces isSeparator text)) (hcolon : P ':') (hdash : P '-')
    (hdigits : ∀ v < 16, P (Nat.digitChar v) ∧ P (Nat.digitChar v).toUpper) :
    ∀ c ∈ text, P c := by
  intro c hc
  rcases Text.mem_pieces hc with hsep | ⟨piece, hpiece, hc⟩
  · rcases isSeparator_iff.mp hsep with rfl | rfl
    · exact hcolon
    · exact hdash
  · obtain ⟨o, high, low, h, l, rfl, hhigh, hlow, -⟩ := h piece hpiece
    simp only [List.mem_cons, List.not_mem_nil, or_false] at hc
    rcases hc with rfl | rfl
    · exact hhigh.elim (P := fun _ c => P c) hdigits
    · exact hlow.elim (P := fun _ c => P c) hdigits

theorem isBlank_of_mem_chars (a : Address) : ∀ c ∈ a.chars, Text.isBlank c = false :=
  forall_mem_of_allOctets (allOctets_iff.mpr ⟨_, a.denotes_chars⟩) (by decide) (by decide)
    (by decide)

/-- **What is written is read back.** -/
theorem parse_text (a : Address) : parse a.text = .ok a := by
  rw [parse, text, String.toList_ofList, Text.trim_of_no_blank a.isBlank_of_mem_chars,
    parseTrimmed, if_neg (not_not.mpr a.byteLength_chars),
    octetsOf_eq_ok a.denotes_chars a.length_octets]

/-! ## Reading and writing -/

/-- What is written for a text that is an address: the text without the blanks around it, in
capitals and with colons. -/
def canonical (s : String) : String :=
  String.ofList ((Text.trim s.toList).map fun c => if c = '-' then ':' else c.toUpper)

theorem denotes_of_parse (h : parse s = .ok a) :
    List.Forall₂ Denotes (Text.pieces isSeparator (Text.trim s.toList)) a.octets := by
  by_cases htext : Text.byteLength (Text.trim s.toList) = 17
  · rcases octets_or_fault (Text.pieces isSeparator (Text.trim s.toList)) with
      hall | ⟨before, part, after, hparts, hbefore, hpart⟩
    · obtain ⟨a', ha', hdenotes⟩ := parseTrimmed_eq_ok htext hall
      obtain rfl : a' = a := Except.ok.inj (ha'.symm.trans h)
      exact hdenotes
    · exact absurd ((parseTrimmed_eq_error htext hparts hbefore hpart).symm.trans h) (by simp)
  · exact absurd ((parseTrimmed_eq_length_iff.mpr ⟨rfl, htext⟩).symm.trans h) (by simp)

theorem octetDigits_of_denotes (h : Denotes piece o) : octetDigits o = piece.map Char.toUpper := by
  obtain ⟨high, low, h, l, rfl, hhigh, hlow, hvalue⟩ := h
  have hupper : ∀ {v d}, IsHexDigit v d → hexDigit v = d.toUpper := fun h =>
    h.elim (P := fun v d => hexDigit v = d.toUpper) (by decide)
  have hl := hlow.1
  have hhi : o.toNat / 16 = h := by omega
  have hlo : o.toNat % 16 = l := by omega
  rw [octetDigits, hhi, hlo, hupper hhigh, hupper hlow]
  rfl

theorem map_octetDigits {parts : List (List Char)} {octets : List UInt8}
    (h : List.Forall₂ Denotes parts octets) :
    octets.map octetDigits = parts.map (List.map Char.toUpper) := by
  induction h with
  | nil => rfl
  | cons hpiece _ ih => rw [List.map_cons, List.map_cons, octetDigits_of_denotes hpiece, ih]

/-- **What is written of what was read is the text in its one form.** -/
theorem text_of_parse (h : parse s = .ok a) : a.text = canonical s := by
  have hmark : ∀ c : Char, (if isSeparator c then ':' else c.toUpper)
      = if c = '-' then ':' else c.toUpper := by
    intro c
    by_cases hcolon : c = ':'
    · subst hcolon
      rfl
    · simp [isSeparator, hcolon]
  rw [text, chars, map_octetDigits (denotes_of_parse h), Text.intercalate_pieces, canonical]
  simp only [hmark]

/-- What is read is ASCII, so that capitals are the ASCII ones. -/
theorem ascii_of_parse (h : parse s = .ok a) : ∀ c ∈ Text.trim s.toList, c.toNat < 128 :=
  forall_mem_of_allOctets (allOctets_iff.mpr ⟨_, denotes_of_parse h⟩) (by decide) (by decide)
    (by decide)

/-- Two texts are the same address exactly if the same is written for them. -/
theorem eq_iff_canonical {s' : String} {a' : Address} (h : parse s = .ok a)
    (h' : parse s' = .ok a') : a = a' ↔ canonical s = canonical s' := by
  rw [← text_of_parse h, ← text_of_parse h']
  constructor
  · rintro rfl
    rfl
  · intro htext
    have hread := congrArg parse htext
    rw [parse_text, parse_text] at hread
    exact Except.ok.inj hread

end Address

end AudioLink
