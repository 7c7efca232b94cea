import TripleCube.Record.Basic
import TripleCube.Text.Bytes

/-! Records as text, by the two halves in which they are stored: the key is index and hash,
the value is tag and payload. -/
namespace TripleCube

/-- How the halves of a stored entry are shown. -/
structure EntryFormat where
  key : List UInt8 → String
  value : List UInt8 → String

namespace EntryFormat

/-- A key with its value, which may be missing. -/
def entry? (format : EntryFormat) (key : List UInt8) (value : Option (List UInt8)) : String :=
  let shown := match value with
    | none => "None"
    | some value => format.value value
  s!"{format.key key} → {shown}"

def entry (format : EntryFormat) (key value : List UInt8) : String := format.entry? key (some value)

/-- Both halves as bytes. -/
def raw : EntryFormat := ⟨Text.quotedBytes, Text.quotedBytes⟩

/-- Index in decimal and hash in hexadecimal digits. A key of another size is shown as bytes. -/
def recordKey (key : List UInt8) : String :=
  if key.length = 8 then
    let index := (UInt32.ofNat (Bytes.ofBig (key.take 4))).toInt32
    let hash := Bytes.ofBig (key.drop 4)
    s!"#{index} {Text.hex 8 hash}"
  else Text.quotedBytes key

/-- The kind, with the payload as bytes or, where it is compressed, with its size. -/
def recordValue : List UInt8 → String
  | [] => "<empty>"
  | tag :: payload =>
    let shown := Text.quotedBytes payload
    match RecordKind.ofTag tag with
    | .ok .any => s!"any {shown}"
    | .ok .blank => s!"blank {shown}"
    | .ok .literal => s!"literal {shown}"
    | .ok .uri => s!"uri {shown}"
    | .ok .var => s!"variable {shown}"
    | .ok .compressedLiteral => s!"literal gz[{payload.length} bytes]"
    | .error _ => s!"0x{Text.hex 2 tag.toNat} {shown}"

def record : EntryFormat := ⟨recordKey, recordValue⟩

end EntryFormat

def NodeRecord.describe (r : NodeRecord) : String := EntryFormat.record.entry r.head r.contentKey

end TripleCube
