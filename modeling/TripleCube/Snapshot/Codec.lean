import TripleCube.Bytes.Digits
import TripleCube.Bytes.Stream
import TripleCube.Error
import TripleCube.Text.Utf8

/-! The value encoding of snapshots: words of fixed width with the least byte first, and
lists and texts behind a 64-bit length. A decoder takes what it needs from the front of
its source and leaves the rest. -/
namespace TripleCube.Snapshot

/-- Why a value cannot be decoded. -/
inductive Fault
  | source (fault : Source.Fault)
  | notBool (byte : UInt8)
  | notUtf8 (fault : Text.Utf8.Fault)
  deriving DecidableEq

def Fault.text : Fault → String
  | .source fault => s!"io error: {fault.text}"
  | .notBool byte => s!"invalid u8 while decoding bool, expected 0 or 1, found {byte}"
  | .notUtf8 fault => s!"string is not valid utf8: {fault.text}"

abbrev Decoder (α : Type) := Source → Except Fault (α × Source)

/-- A value encoding, both ways. -/
structure Codec (α : Type) where
  encode : α → List UInt8
  decode : Decoder α

namespace Codec

/-- Exactly `count` bytes. -/
def takeBytes (count : Nat) : Decoder (List UInt8) := fun source =>
  (source.take count).mapError .source

/-- A word of `width` bytes, through its value as a natural number. -/
def word {α : Type} (width : Nat) (toNat : α → Nat) (ofNat : Nat → α) : Codec α where
  encode value := Bytes.little width (toNat value)
  decode source := do
    let (digits, source) ← takeBytes width source
    return (ofNat (Bytes.ofLittle digits), source)

def uint32 : Codec UInt32 := word 4 UInt32.toNat UInt32.ofNat

def uint64 : Codec UInt64 := word 8 UInt64.toNat UInt64.ofNat

def int32 : Codec Int32 := word 4 (·.toUInt32.toNat) fun n => (UInt32.ofNat n).toInt32

def int64 : Codec Int64 := word 8 (·.toUInt64.toNat) fun n => (UInt64.ofNat n).toInt64

def pair {α β : Type} (first : Codec α) (second : Codec β) : Codec (α × β) where
  encode value := first.encode value.1 ++ second.encode value.2
  decode source := do
    let (a, source) ← first.decode source
    let (b, source) ← second.decode source
    return ((a, b), source)

/-- The decoder of `count` values in a row. -/
def decodeMany {α : Type} (decode : Decoder α) : (count : Nat) → Decoder (List α)
  | 0, source => .ok ([], source)
  | count + 1, source => do
    let (value, source) ← decode source
    let (values, source) ← decodeMany decode count source
    return (value :: values, source)

def list {α : Type} (element : Codec α) : Codec (List α) where
  encode values := uint64.encode values.length.toUInt64 ++ values.flatMap element.encode
  decode source := do
    let (count, source) ← uint64.decode source
    decodeMany element.decode count.toNat source

def bool : Codec Bool where
  encode value := [if value then 1 else 0]
  decode source := do
    let (byte, source) ← word 1 UInt8.toNat UInt8.ofNat |>.decode source
    if byte = 0 then return (false, source)
    else if byte = 1 then return (true, source)
    else throw (.notBool byte)

def text : Codec String where
  encode value :=
    let bytes := Text.Utf8.encode value
    uint64.encode bytes.length.toUInt64 ++ bytes
  decode source := do
    let (count, source) ← uint64.decode source
    let (bytes, source) ← takeBytes count.toNat source
    match Text.Utf8.decode? bytes with
    | some value => return (value, source)
    | none => throw (.notUtf8 ((Text.Utf8.fault? bytes).getD (.incomplete 0)))

/-- Writes a value. -/
def write {α : Type} (codec : Codec α) (value : α) (sink : Sink) : Except Error Sink :=
  (sink.write (codec.encode value)).mapError fun cause =>
    .snapshot (.unwritable (Fault.source (.failed cause)).text)

/-- Reads a value from the front of a source. -/
def read {α : Type} (codec : Codec α) (source : Source) : Except Error α :=
  match codec.decode source with
  | .ok (value, _) => .ok value
  | .error (.source .ended) => .error (.snapshot .truncated)
  | .error fault => .error (.snapshot (.unreadable fault.text))

end Codec

end TripleCube.Snapshot
