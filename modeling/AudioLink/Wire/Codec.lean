import AudioLink.Address.Text
import AudioLink.Wire.Value

/-!
# Writing and reading structured values

What can leave the process has one written form, and is read back from it. Reading
accepts some more forms than the written one; what it refuses it refuses as a whole.
-/

namespace AudioLink.Wire

/-- A type whose values can be written as structured values and read back. -/
class Codec (α : Type) where
  encode : α → Value
  decode : Value → Option α

export Codec (encode decode)

/-- Read a word of a fixed vocabulary. -/
def decodeWord {α : Type} (name : α → String) (vocabulary : List α) (v : Value) : Option α :=
  v.word?.bind fun word => vocabulary.find? (name · = word)

instance : Codec Bool where
  encode := .bool
  decode
    | .bool b => some b
    | _ => none

instance : Codec String where
  encode := .text
  decode
    | .text s => some s
    | _ => none

instance : Codec UInt8 where
  encode n := .whole n.toNat
  decode v := (v.natural? UInt8.size).map UInt8.ofNat

instance : Codec UInt32 where
  encode n := .whole n.toNat
  decode v := (v.natural? UInt32.size).map UInt32.ofNat

instance : Codec UInt64 where
  encode n := .whole n.toNat
  decode v := (v.natural? UInt64.size).map UInt64.ofNat

variable {α : Type} [Codec α]

/-- Nothing is null. -/
instance : Codec (Option α) where
  encode
    | none => .null
    | some a => encode a
  decode
    | .null => some none
    | v => (decode v).map some

instance : Codec (List α) where
  encode as := .list (as.map encode)
  decode
    | .list values => values.mapM decode
    | _ => none

/-- An address is its text. -/
instance : Codec Address where
  encode a := .text a.text
  decode
    | .text s => (Address.parse s).toOption
    | _ => none

/-- A set of addresses is listed in ascending order; what is listed twice is in it once. -/
instance : Codec AddressSet where
  encode s := encode s.toList
  decode v := (decode v).map fun addresses : List Address =>
    addresses.foldl (fun s a => s.insert a) ∅

/-- Read one entry of a map. -/
def decodeEntry (entry : String × Value) : Option (Address × α) := do
  let address ← (Address.parse entry.1).toOption
  let value ← decode entry.2
  pure (address, value)

/-- A map is named by its addresses; of two names for one address the later counts. -/
instance : Codec (AddressMap α) where
  encode m := .named (m.toList.map fun entry => (entry.1.text, encode entry.2))
  decode
    | .named entries => (entries.mapM decodeEntry).map fun decoded : List (Address × α) =>
        decoded.foldl (fun m entry => m.insert entry.1 entry.2) ∅
    | _ => none

end AudioLink.Wire
