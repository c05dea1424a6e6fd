import AudioLink.Address
import AudioLink.Text.Blank
import AudioLink.Text.Pieces

/-!
# Addresses as text

Reading is lenient about blanks around the text, about the case of the digits and
about the separator, which may be a colon or a dash at each place. Writing always
gives capital digits and colons, so an address has one written form.

A text that is not an address is refused for the first of these reasons that
applies: its length, then the leftmost piece that is not an octet.
-/

namespace AudioLink.Address

/-! ## Writing -/

/-- The capital hexadecimal digit of a value below sixteen. -/
def hexDigit (value : Nat) : Char :=
  Char.ofNat (if value < 10 then '0'.toNat + value else 'A'.toNat + (value - 10))

/-- The two digits of an octet, the high one first. -/
def octetDigits (octet : UInt8) : List Char :=
  [hexDigit (octet.toNat / 16), hexDigit (octet.toNat % 16)]

/-- The digits of the octets with a colon between any two. -/
def chars (a : Address) : List Char :=
  List.intercalate [':'] (a.octets.map octetDigits)

def text (a : Address) : String :=
  String.ofList a.chars

instance : ToString Address := ⟨text⟩

/-! ## Reading -/

/-- Why a text or a list of octets is not an address. -/
inductive ParseError where
  /-- The number of bytes of the text, or of octets given, is not that of an address. -/
  | length (count : Nat)
  /-- The text is not six pieces of two bytes. -/
  | malformed (text : String)
  /-- A piece of two bytes is not two hexadecimal digits. -/
  | notHex (piece : String)
deriving DecidableEq, Repr

def ParseError.message : ParseError → String
  | .length count => "Invalid device address length: " ++ toString count
  | .malformed text => "Malformed device address: " ++ text
  | .notHex piece => "Invalid hex octet in device address: " ++ piece

def isSeparator (c : Char) : Bool :=
  c == ':' || c == '-'

/-- The value of a hexadecimal digit, capital or small. -/
def hexValue? (c : Char) : Option Nat :=
  if '0' ≤ c ∧ c ≤ '9' then some (c.toNat - '0'.toNat)
  else if 'A' ≤ c ∧ c ≤ 'F' then some (c.toNat - 'A'.toNat + 10)
  else if 'a' ≤ c ∧ c ≤ 'f' then some (c.toNat - 'a'.toNat + 10)
  else none

/-- What can be wrong with the pieces of a text. -/
inductive Fault where
  /-- A piece is not two bytes long. -/
  | width
  /-- A piece of two bytes is not two hexadecimal digits. -/
  | notHex (piece : List Char)
  /-- A piece stands where all octets have been read. -/
  | surplus
  /-- The pieces end before all octets have been read. -/
  | missing
deriving DecidableEq, Repr

/-- The octet that a piece denotes. -/
def octet (piece : List Char) : Except Fault UInt8 :=
  if Text.byteLength piece ≠ 2 then .error .width
  else match piece.mapM hexValue? with
    | some [high, low] => .ok (UInt8.ofNat (16 * high + low))
    | _ => .error (.notHex piece)

/-- The octets that the pieces denote, as many as asked for; the leftmost fault counts. -/
def octetsOf : (count : Nat) → List (List Char) →
    Except Fault { octets : List UInt8 // octets.length = count }
  | 0, [] => .ok ⟨[], rfl⟩
  | 0, _ :: _ => .error .surplus
  | _ + 1, [] => .error .missing
  | count + 1, piece :: pieces =>
    match octet piece with
    | .error fault => .error fault
    | .ok first =>
      match octetsOf count pieces with
      | .error fault => .error fault
      | .ok ⟨rest, h⟩ => .ok ⟨first :: rest, by simp [h]⟩

/-- What is reported of a fault in the pieces of a text. -/
def Fault.report (text : List Char) : Fault → ParseError
  | .notHex piece => .notHex (String.ofList piece)
  | .width | .surplus | .missing => .malformed (String.ofList text)

/-- The address that trimmed text denotes. -/
def parseTrimmed (text : List Char) : Except ParseError Address :=
  if Text.byteLength text ≠ 17 then .error (.length (Text.byteLength text))
  else match octetsOf 6 (Text.pieces isSeparator text) with
    | .ok ⟨octets, h⟩ => .ok ⟨octets, h⟩
    | .error fault => .error (fault.report text)

/-- The address that a text denotes, blanks around it ignored. -/
def parse (text : String) : Except ParseError Address :=
  parseTrimmed (Text.trim text.toList)

/-- The address with the given octets, or the complaint that they are not six. -/
def ofOctets (octets : List UInt8) : Except ParseError Address :=
  if h : octets.length = 6 then .ok ⟨octets, h⟩ else .error (.length octets.length)

/-- The addresses that the texts denote, or what is wrong with the first that denotes none. -/
def parseAll (texts : List String) : Except ParseError (List Address) :=
  texts.mapM parse

end AudioLink.Address
