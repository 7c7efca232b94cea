import TripleCube.Checksum
import TripleCube.Compression
import TripleCube.Literal.Packed
import TripleCube.Record.Kind

/-! Node records: the stored form of one node. A record is written as its index, the hash of
its content, the tag of its kind and the payload, with the greatest byte first. Text of
other nodes than literals is the payload as it is; a literal is packed and, when it is
long, compressed. -/
namespace TripleCube

/-- A record. Its content is the kind with the payload; the hash is always that of the
content. -/
structure NodeRecord where
  index : Int32
  kind : RecordKind
  payload : List UInt8
  deriving DecidableEq

namespace NodeRecord

variable [Compression]

/-- The index of a record that has none yet. -/
def unassigned : Int32 := -1

/-- Bytes before the payload. -/
def headerSize : Nat := 9

/-- The payload of a node's record when nothing is compressed. -/
def plainPayload : Node → Except Error (List UInt8)
  | .any => .ok []
  | .uri text | .blank text | .var text => .ok (Text.Utf8.encode text)
  | .literal l => l.pack

def compress (packed : List UInt8) : Except Error (List UInt8) :=
  (Compression.compress packed).mapError (.encode "compressed literal")

def decompress (payload : List UInt8) : Except Error (List UInt8) :=
  (Compression.decompress payload).mapError (.decode "compressed literal")

/-- The record of a node. A packed literal of more than `threshold` bytes is compressed. -/
def encode (node : Node) (index : Int32) (threshold : Nat) : Except Error NodeRecord := do
  let payload ← plainPayload node
  if RecordKind.ofNode node = .literal ∧ threshold < payload.length then
    return ⟨index, .compressedLiteral, ← compress payload⟩
  else return ⟨index, .ofNode node, payload⟩

def hash (r : NodeRecord) : UInt32 := contentHash r.kind.tag r.payload

/-- The tag and the payload as stored. -/
def contentKey (r : NodeRecord) : List UInt8 := r.kind.tag :: r.payload

/-- Index and hash. -/
def head (r : NodeRecord) : List UInt8 :=
  Bytes.big 4 r.index.toUInt32.toNat ++ Bytes.big 4 r.hash.toNat

def toBytes (r : NodeRecord) : List UInt8 := r.head ++ r.contentKey

/-- Reads a record. Its tag has to be known and its hash that of its content; whether the
payload can be decoded is not looked at. -/
def ofBytes (bytes : List UInt8) : Except Error NodeRecord :=
  match bytes.drop (headerSize - 1) with
  | [] => .error (.invalidRecord .truncated)
  | tag :: payload =>
    match RecordKind.ofTag tag with
    | .error fault => .error (.invalidRecord fault)
    | .ok kind =>
      let index := (UInt32.ofNat (Bytes.ofBig (bytes.take 4))).toInt32
      let stored := UInt32.ofNat (Bytes.ofBig ((bytes.drop 4).take 4))
      let computed := contentHash tag payload
      if stored = computed then .ok ⟨index, kind, payload⟩
      else .error (.invalidRecord (.format (.hashMismatch stored computed)))

/-- What identifies a node: its tag and payload when nothing is compressed. -/
def nodeKey (node : Node) : Except Error (List UInt8) := do
  let payload ← plainPayload node
  return (RecordKind.ofNode node).tag :: payload

/-- The key of the node that is stored, whether compressed or not. -/
def canonicalKey (r : NodeRecord) : Except Error (List UInt8) :=
  match r.kind with
  | .compressedLiteral => do
    let packed ← decompress r.payload
    return RecordKind.literal.tag :: packed
  | _ => .ok r.contentKey

def isAssigned (r : NodeRecord) : Bool := r.index != unassigned

/-- Gives a record its index, which happens only once. -/
def setIndex (r : NodeRecord) (index : Int32) : Except Error NodeRecord :=
  if r.isAssigned then .error (.invalidState (.indexAssigned r.index))
  else if index < 0 then .error (.invalidArgument (.negativeIndex index))
  else .ok { r with index }

def text (payload : List UInt8) : Except Error String :=
  match Text.Utf8.decode? payload with
  | some text => .ok text
  | none => .error (.invalidRecord .notUtf8)

/-- The node that is stored. -/
def decode (r : NodeRecord) : Except Error Node :=
  match r.kind with
  | .any => .ok .any
  | .uri => return .uri (← text r.payload)
  | .blank => return .blank (← text r.payload)
  | .var => return .var (← text r.payload)
  | .literal => return .literal (← Literal.unpack r.payload)
  | .compressedLiteral => do
    let packed ← decompress r.payload
    return .literal (← Literal.unpack packed)

/-- Whether two records store the same bytes, whatever their indices. A literal that is
stored compressed differs here from the same literal stored plain. -/
def sameContent (r s : NodeRecord) : Bool := r.kind = s.kind && r.payload = s.payload

end NodeRecord

end TripleCube
