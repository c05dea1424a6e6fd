/-!
# Blank characters

Text that a person typed or a setting held is trimmed before it is read. The
characters trimmed are those with the Unicode property `White_Space`.
-/

namespace AudioLink.Text

/-- The ranges, ends included, of the characters with the property `White_Space`. -/
def blankRanges : List (Nat × Nat) :=
  [(0x0009, 0x000D), (0x0020, 0x0020), (0x0085, 0x0085), (0x00A0, 0x00A0), (0x1680, 0x1680),
   (0x2000, 0x200A), (0x2028, 0x2029), (0x202F, 0x202F), (0x205F, 0x205F), (0x3000, 0x3000)]

/-- The character is blank. -/
def isBlank (c : Char) : Bool :=
  blankRanges.any fun range => range.1 ≤ c.toNat && c.toNat ≤ range.2

/-- The text without the blanks at its two ends. -/
def trim (cs : List Char) : List Char :=
  ((cs.dropWhile isBlank).reverse.dropWhile isBlank).reverse

/-- Text that neither begins nor ends with a blank is left alone. -/
theorem trim_eq_self {cs : List Char} (hhead : cs.dropWhile isBlank = cs)
    (hlast : cs.reverse.dropWhile isBlank = cs.reverse) : trim cs = cs := by
  rw [trim, hhead, hlast, List.reverse_reverse]

end AudioLink.Text
