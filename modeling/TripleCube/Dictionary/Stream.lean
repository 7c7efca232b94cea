import TripleCube.Bytes.Stream
import TripleCube.Dictionary.Basic

/-! Dictionary streams: the number of records, then each record behind its length, with
the greatest byte of a number first. Records are written in the order of their indices and
may be read in any order. They keep the compression with which they were written. -/
namespace TripleCube

namespace Dictionary

variable [Compression]

/-- One past the greatest length of a record. -/
def maxRecordLength : Nat := 1 <<< 32

/-- A record behind its length. -/
def recordBytes (r : NodeRecord) : List UInt8 := Bytes.big 4 r.toBytes.length ++ r.toBytes

/-- The stream of a list of records. -/
def stream (records : List NodeRecord) : List UInt8 :=
  Bytes.big 4 records.length ++ records.flatMap recordBytes

def writeField (name : String) (bytes : List UInt8) (sink : Sink) : Except Error Sink :=
  (sink.write bytes).mapError (.encode name)

def writeRecord (sink : Sink) (r : NodeRecord) : Except Error Sink := do
  let bytes := r.toBytes
  if bytes.length < maxRecordLength then
    let sink ← writeField "record_len" (Bytes.big 4 bytes.length) sink
    writeField "record" bytes sink
  else .error (.invalidState (.recordTooLong r.index bytes.length))

def write (d : Dictionary) (sink : Sink) : Except Error Sink := do
  d.ensureOpen
  let sink ← writeField "count" (Bytes.big 4 d.count) sink
  let sink ← d.records.toList.foldlM writeRecord sink
  sink.flush.mapError .io
  return sink

def readWord (name : String) (source : Source) : Except Error (UInt32 × Source) := do
  let (digits, source) ← (source.take 4).mapError fun fault => .decode name fault.text
  return (UInt32.ofNat (Bytes.ofBig digits), source)

def readRecord (source : Source) : Except Error (NodeRecord × Source) := do
  let (length, source) ← readWord "record_len" source
  let (bytes, source) ←
    (source.takeUpTo length.toNat).mapError fun fault => .decode "record" fault.text
  if bytes.length = length.toNat then
    let r ← NodeRecord.ofBytes bytes
    return (r, source)
  else .error (.invalidRecord (.cutShort length bytes.length))

def readRecords : (count : Nat) → Source → Except Error (List NodeRecord)
  | 0, _ => .ok []
  | count + 1, source => do
    let (r, source) ← readRecord source
    let rest ← readRecords count source
    return r :: rest

/-- The content map of records in the order of their indices, which have to count up from
`position`. No two records may hold the same node. -/
def indexContent : List NodeRecord → (position : Nat) → Assoc (List UInt8) Int32 →
    Except Error (Assoc (List UInt8) Int32)
  | [], _, byContent => .ok byContent
  | r :: rest, position, byContent =>
    if r.index.toInt = position then do
      let key ← r.canonicalKey
      match byContent.find? key with
      | some _ => .error (.invalidRecord (.duplicate r.index))
      | none => indexContent rest (position + 1) (byContent.insert key r.index)
    else .error (.invalidRecord (.wrongIndex position r.index))

/-- The dictionary of a list of records. -/
def ofRecords (records : List NodeRecord) (config : Config) : Except Error Dictionary := do
  let sorted := records.mergeSort fun a b => a.index ≤ b.index
  let byContent ← indexContent sorted 0 []
  return { empty config with records := sorted.toArray, byContent }

def read (source : Source) (config : Config) : Except Error Dictionary := do
  let (count, source) ← readWord "count" source
  let records ← readRecords count.toNat source
  ofRecords records config

end Dictionary

end TripleCube
