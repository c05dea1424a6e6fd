/-!
# Structured values

The shape that settings, events, notices and snapshots have when they leave the process:
a value is nothing, a truth value, a number, text, a list of values, or named values.

Reading is strict. A whole number is one that is written without a fraction and without
an exponent, and it has to lie in the range of what is read. A record is read from named
values, or from a list of exactly its fields in order.
-/

namespace AudioLink.Wire

/-- A structured value. -/
inductive Value where
  | null
  | bool (b : Bool)
  /-- A number written without a fraction and without an exponent. -/
  | whole (i : Int)
  /-- Any other number. Nothing reads it, so what it denotes is not kept. -/
  | fractional
  | text (s : String)
  | list (values : List Value)
  /-- Named values. Their order counts only where two names mean the same thing. -/
  | named (entries : List (String × Value))

/-- A field of a record, with what stands for it where it is left out. -/
structure Field where
  name : String
  absent : Option Value := none

/-- A field that may not be left out. -/
def required (name : String) : Field := ⟨name, none⟩

/-- A field that is null where it is left out. -/
def optional (name : String) : Field := ⟨name, some .null⟩

namespace Value

/-- The whole number in a range, ends included. -/
def wholeWithin? (low high : Int) : Value → Option Int
  | whole i => if low ≤ i ∧ i ≤ high then some i else none
  | _ => none

/-- The whole number from zero up to, and without, a limit. -/
def natural? (limit : Nat) : Value → Option Nat
  | whole i => if 0 ≤ i ∧ i < limit then some i.toNat else none
  | _ => none

/-- The word that stands alone, or that names nothing. -/
def word? : Value → Option String
  | text s => some s
  | named [(s, null)] => some s
  | _ => none

/-- The value of a field among named values. -/
def field? (entries : List (String × Value)) (f : Field) : Option Value :=
  (entries.lookup f.name).or f.absent

/-- The values of the fields, from named values. -/
def fields? (fields : List Field) : Value → Option (List Value)
  | named entries => fields.mapM (field? entries)
  | _ => none

/-- The values of the fields of a record. -/
def record? (fields : List Field) : Value → Option (List Value)
  | list values => if values.length = fields.length then some values else none
  | v => v.fields? fields

/-- The values of the fields of a record in which no other name may stand. -/
def closedRecord? (fields : List Field) : Value → Option (List Value)
  | named entries =>
    if entries.all fun entry => fields.any (·.name = entry.1) then
      fields.mapM (field? entries)
    else none
  | v => v.record? fields

end Value

end AudioLink.Wire
