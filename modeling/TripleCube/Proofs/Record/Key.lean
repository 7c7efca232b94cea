import TripleCube.Outcome
import TripleCube.Proofs.Literal.Packed
import TripleCube.Record.Basic

/-! Keys stand for nodes: nodes that can be stored have different keys, and a record that
decodes to a node has the key of that node, compressed or not. The one exception is the kind
of the wildcard node, whose records decode to it whatever their payload. -/
namespace TripleCube

theorem RecordKind.tag_inj {a b : RecordKind} : a.tag = b.tag ↔ a = b := by
  constructor
  · intro same
    have read := ofTag_tag a
    rw [same, ofTag_tag] at read
    exact (Except.ok.inj read).symm
  · rintro rfl
    rfl

namespace Node

/-- What is said of a node that has no key, since one of its fields is too long. -/
def refusal? : Node → Option Error
  | .literal l => l.packRefusal?
  | _ => none

/-- Whether a node has a key. -/
def Storable (node : Node) : Prop := node.refusal? = none

instance (node : Node) : Decidable node.Storable := inferInstanceAs (Decidable (_ = none))

/-- A node that has no key: its text is one byte too long. -/
def overlong : Node := .literal (.ofLetters Literal.lengthLimit)

/-- What is said of the text that is one byte too long. -/
def overlongError : Error := .invalidArgument (.fieldTooLong "lexical" Literal.lengthLimit)

theorem refusal?_overlong : overlong.refusal? = some overlongError :=
  Literal.packRefusal?_ofLetters (Nat.le_refl _)

theorem overlong_ne_any : overlong ≠ .any := Node.noConfusion

end Node

namespace NodeRecord

/-- The payload of a node when nothing is compressed. -/
def plainBytes : Node → List UInt8
  | .any => []
  | .uri text | .blank text | .var text => Text.Utf8.encode text
  | .literal l => l.packedBytes

/-- The key of a node. -/
def keyOf (node : Node) : List UInt8 := (RecordKind.ofNode node).tag :: plainBytes node

theorem plainPayload_eq (node : Node) :
    plainPayload node = match node.refusal? with
      | none => .ok (plainBytes node)
      | some e => .error e := by
  cases node with
  | literal l => exact l.pack_eq
  | _ => rfl

theorem nodeKey_eq (node : Node) :
    nodeKey node = match node.refusal? with
      | none => .ok (keyOf node)
      | some e => .error e := by
  rw [nodeKey, plainPayload_eq]
  cases node.refusal? <;> rfl

theorem nodeKey_eq_ok_iff {node : Node} {key : List UInt8} :
    nodeKey node = .ok key ↔ node.Storable ∧ key = keyOf node := by
  rw [nodeKey_eq, Node.Storable]
  cases node.refusal? <;> simp [eq_comm]

theorem encode_text_inj {a b : String} : Text.Utf8.encode a = Text.Utf8.encode b ↔ a = b := by
  constructor
  · intro same
    have read := Text.Utf8.decode?_encode a
    rw [same, Text.Utf8.decode?_encode] at read
    exact (Option.some.inj read).symm
  · rintro rfl
    rfl

/-- Nodes of one kind have different payloads. -/
theorem eq_of_plainBytes {a b : Node} (sa : a.Storable) (sb : b.Storable)
    (kinds : RecordKind.ofNode a = RecordKind.ofNode b) (payloads : plainBytes a = plainBytes b) :
    a = b := by
  cases a <;> cases b <;> try cases kinds
  case any.any => rfl
  case literal.literal a b =>
    have unpacked := (Literal.packRefusal?_eq_none_iff.mp sa).unpack
    rw [show a.packedBytes = b.packedBytes from payloads,
      (Literal.packRefusal?_eq_none_iff.mp sb).unpack] at unpacked
    exact congrArg Node.literal (Except.ok.inj unpacked).symm
  all_goals exact congrArg _ (encode_text_inj.mp payloads)

theorem keyOf_injective {a b : Node} (sa : a.Storable) (sb : b.Storable)
    (same : keyOf a = keyOf b) : a = b := by
  obtain ⟨tags, payloads⟩ := List.cons.inj same
  exact eq_of_plainBytes sa sb (RecordKind.tag_inj.mp tags) payloads

theorem eq_encode_of_text {payload : List UInt8} {text : String}
    (read : NodeRecord.text payload = .ok text) : payload = Text.Utf8.encode text := by
  rw [NodeRecord.text] at read
  split at read
  · next decoded =>
    cases read
    exact Text.Utf8.eq_encode_of_decode? decoded
  · cases read

/-- Whether the payload of a node is compressed. -/
def Long (node : Node) (threshold : Nat) : Prop :=
  RecordKind.ofNode node = .literal ∧ threshold < (plainBytes node).length

instance (node : Node) (threshold : Nat) : Decidable (Long node threshold) :=
  inferInstanceAs (Decidable (_ ∧ _))

section

variable [Compression]

theorem decode_plain {node : Node} (storable : node.Storable) (index : Int32) :
    decode ⟨index, .ofNode node, plainBytes node⟩ = .ok node := by
  cases node with
  | any => rfl
  | literal l =>
    have unpacked := (Literal.packRefusal?_eq_none_iff.mp storable).unpack
    simp only [decode, RecordKind.ofNode, plainBytes, unpacked]
    rfl
  | uri text | blank text | var text =>
    simp only [decode, RecordKind.ofNode, plainBytes, NodeRecord.text, Text.Utf8.decode?_encode]
    rfl

/-- A record of a node: it decodes to the node and has its key. -/
structure Stores (r : NodeRecord) (node : Node) : Prop where
  storable : node.Storable
  key : r.canonicalKey = .ok (keyOf node)
  decoded : r.decode = .ok node

theorem Stores.keyed {r : NodeRecord} {node : Node} (stores : r.Stores node) :
    ∃ key, nodeKey node = .ok key ∧ r.canonicalKey = .ok key :=
  ⟨keyOf node, nodeKey_eq_ok_iff.mpr ⟨stores.storable, rfl⟩, stores.key⟩

theorem canonicalKey_plain (index : Int32) (node : Node) (payload : List UInt8) :
    canonicalKey ⟨index, .ofNode node, payload⟩ =
      .ok ((RecordKind.ofNode node).tag :: payload) := by
  cases node <;> rfl

theorem stores_plain {node : Node} (storable : node.Storable) (index : Int32) :
    Stores ⟨index, .ofNode node, plainBytes node⟩ node :=
  ⟨storable, canonicalKey_plain index node _, decode_plain storable index⟩

/-- A payload that expands to that of a literal stores the literal. -/
theorem stores_compressed {l : Literal} (fits : l.FitsPacked) {payload : List UInt8}
    (expanded : decompress payload = .ok l.packedBytes) (index : Int32) :
    Stores ⟨index, .compressedLiteral, payload⟩ (.literal l) where
  storable := Literal.packRefusal?_eq_none_iff.mpr fits
  key := by
    simp only [canonicalKey, expanded]
    rfl
  decoded := by
    simp only [decode, expanded, bind, Except.bind, fits.unpack]
    rfl

theorem encode_of_storable {node : Node} (storable : node.Storable) (index : Int32)
    (threshold : Nat) : encode node index threshold =
      if Long node threshold then
        (compress (plainBytes node)).map fun payload => ⟨index, .compressedLiteral, payload⟩
      else .ok ⟨index, .ofNode node, plainBytes node⟩ := by
  have payload := plainPayload_eq node
  rw [storable] at payload
  rw [encode, payload]
  rfl

theorem exists_compressed (lossless : Compression.Lossless) (packed : List UInt8) :
    ∃ payload, compress packed = .ok payload ∧ decompress payload = .ok packed := by
  obtain ⟨payload, made, expands⟩ := lossless packed
  exact ⟨payload, by rw [compress, made]; rfl, by rw [decompress, expands]; rfl⟩

/-- What encoding a node can come to. It stores the node, whatever the threshold, if the
compression loses nothing. -/
inductive Encoding (node : Node) (index : Int32) : Except Error NodeRecord → Prop
  | refused (e : Error) (refusal : node.refusal? = some e) : Encoding node index (.error e)
  | failed (e : Error) (storable : node.Storable) (lossy : ¬ Compression.Lossless) :
    Encoding node index (.error e)
  | encoded (r : NodeRecord) (storable : node.Storable) (index_eq : r.index = index)
    (kind : r.kind = .any → node = .any) (stores : Compression.Lossless → r.Stores node) :
    Encoding node index (.ok r)

theorem encoding (node : Node) (index : Int32) (threshold : Nat) :
    Encoding node index (encode node index threshold) := by
  cases refusal : node.refusal? with
  | some e =>
    rw [encode, plainPayload_eq, refusal]
    exact .refused e refusal
  | none =>
    rw [encode_of_storable refusal]
    split
    · next long =>
      cases node with
      | literal l =>
        have fits := Literal.packRefusal?_eq_none_iff.mp refusal
        cases compressed : compress (plainBytes (.literal l)) with
        | ok payload =>
          refine .encoded _ refusal rfl (fun isAny => by cases isAny) fun lossless => ?_
          obtain ⟨_, made, expanded⟩ := exists_compressed lossless l.packedBytes
          cases made.symm.trans compressed
          exact stores_compressed fits expanded index
        | error e =>
          refine .failed e refusal fun lossless => ?_
          obtain ⟨_, made, -⟩ := exists_compressed lossless l.packedBytes
          cases made.symm.trans compressed
      | _ => exact absurd long.1 (by simp [RecordKind.ofNode])
    · refine .encoded _ refusal rfl ?_ fun _ => stores_plain refusal index
      cases node <;> simp [RecordKind.ofNode]

/-- A record that decodes has the key of its node, unless it is of the wildcard kind. -/
theorem stores_of_decode {r : NodeRecord} {node : Node} (decoded : r.decode = .ok node)
    (kind : r.kind ≠ .any) : r.Stores node ∧ node ≠ .any := by
  obtain ⟨index, kind', payload⟩ := r
  rw [decode] at decoded
  cases kind' with
  | any => exact absurd rfl kind
  | uri | blank | var =>
    obtain ⟨text, read, same⟩ := bind_eq_ok.mp decoded
    cases same
    cases eq_encode_of_text read
    exact ⟨⟨rfl, rfl, decoded⟩, by simp⟩
  | literal =>
    obtain ⟨l, read, same⟩ := bind_eq_ok.mp decoded
    cases same
    obtain ⟨fits, rfl⟩ := Literal.unpack_eq_ok_iff.mp read
    exact ⟨⟨Literal.packRefusal?_eq_none_iff.mpr fits, rfl, decoded⟩, by simp⟩
  | compressedLiteral =>
    obtain ⟨packed, expanded, read⟩ := bind_eq_ok.mp decoded
    obtain ⟨l, unpacked, same⟩ := bind_eq_ok.mp read
    cases same
    obtain ⟨fits, rfl⟩ := Literal.unpack_eq_ok_iff.mp unpacked
    refine ⟨⟨Literal.packRefusal?_eq_none_iff.mpr fits, ?_, decoded⟩, by simp⟩
    simp only [canonicalKey, expanded]
    rfl

end

end NodeRecord

end TripleCube
