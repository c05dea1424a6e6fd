/-!
# Cutting and measuring text

Text is handled as its list of characters. It is cut at every separator, and its
length is counted in bytes of UTF-8.
-/

namespace AudioLink.Text

/-- The text between separators: one piece more than there are separators. -/
def pieces (isSeparator : Char → Bool) : List Char → List (List Char)
  | [] => [[]]
  | c :: cs =>
    if isSeparator c then [] :: pieces isSeparator cs
    else match pieces isSeparator cs with
      | [] => [[c]]
      | piece :: rest => (c :: piece) :: rest

/-- The number of bytes that UTF-8 takes for the text. -/
def byteLength : List Char → Nat
  | [] => 0
  | c :: cs => c.utf8Size + byteLength cs

/-- The text with the capital ASCII letters made small. -/
def lower (cs : List Char) : List Char :=
  cs.map Char.toLower

/-- Cutting gives at least one piece. -/
theorem pieces_ne_nil (isSeparator : Char → Bool) (cs : List Char) :
    pieces isSeparator cs ≠ [] := by
  cases cs with
  | nil => simp [pieces]
  | cons c cs =>
    unfold pieces
    split
    · simp
    · split <;> simp

@[simp] theorem byteLength_nil : byteLength [] = 0 := rfl

@[simp] theorem byteLength_cons (c : Char) (cs : List Char) :
    byteLength (c :: cs) = c.utf8Size + byteLength cs := rfl

end AudioLink.Text
