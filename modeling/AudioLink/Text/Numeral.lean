/-!
# Decimal numerals

A count in a setting is an optional plus sign and ASCII digits, at least one, with
any number of leading zeros, and has to stay below a limit.
-/

namespace AudioLink.Text

/-- The value of an ASCII digit. -/
def digitValue? (c : Char) : Option Nat :=
  if '0' ≤ c ∧ c ≤ '9' then some (c.toNat - '0'.toNat) else none

/-- The value of digits read from the left, with `value` read before them. -/
def digitsFrom? (value : Nat) : List Char → Option Nat
  | [] => some value
  | c :: cs => (digitValue? c).bind fun digit => digitsFrom? (10 * value + digit) cs

/-- The value of one or more digits. -/
def digits? : List Char → Option Nat
  | [] => none
  | cs => digitsFrom? 0 cs

/-- The value of a numeral below the limit, a plus sign before it allowed. -/
def numeral? (limit : Nat) (cs : List Char) : Option Nat :=
  let digits := match cs with
    | '+' :: rest => rest
    | _ => cs
  (digits? digits).filter (· < limit)

end AudioLink.Text
