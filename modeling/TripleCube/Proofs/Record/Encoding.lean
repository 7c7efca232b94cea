import TripleCube.Proofs.Gzip.Stored
import TripleCube.Proofs.Record.Bytes
import TripleCube.Proofs.Record.Key

/-! The record of a node. Encoder, reader, decoder and key agree on it, whatever the threshold
makes of its payload, and also after it has been given its index. -/
namespace TripleCube

theorem Node.storable_of_fits {node : Node} (fits : ∀ l, node = .literal l → l.FitsPacked) :
    node.Storable := by
  cases node with
  | literal l => exact Literal.packRefusal?_eq_none_iff.mpr (fits l rfl)
  | _ => rfl

namespace NodeRecord

variable {node : Node} {index new : Int32} {threshold : Nat} {r r' : NodeRecord}

theorem long_iff (storable : node.Storable) : Long node threshold ↔
    ∃ l packed, node = .literal l ∧ l.pack = .ok packed ∧ threshold < packed.length := by
  cases node with
  | literal l =>
    have packs := l.pack_eq
    rw [show l.packRefusal? = none from storable] at packs
    simp [Long, RecordKind.ofNode, plainBytes, packs]
  | _ => simp [Long, RecordKind.ofNode]

theorem setIndex_eq_ok_iff :
    r.setIndex new = .ok r' ↔ r.index = unassigned ∧ 0 ≤ new ∧ r' = { r with index := new } := by
  rw [setIndex, isAssigned]
  by_cases assigned : r.index = unassigned
  · by_cases negative : new < 0
    · simp [assigned, negative, Int32.not_le.mpr negative]
    · simp [assigned, negative, Int32.not_lt.mp negative, eq_comm]
  · simp [assigned]

theorem length_toBytes (r : NodeRecord) : r.toBytes.length = headerSize + r.payload.length := by
  simp [toBytes, length_head, contentKey, headerSize]
  omega

/-- The index takes the first four bytes and no other. -/
theorem drop_four_toBytes (r : NodeRecord) :
    r.toBytes.drop 4 = Bytes.big 4 r.hash.toNat ++ r.contentKey := by
  rw [toBytes, head, List.append_assoc]
  exact List.drop_left' (Bytes.length_big 4 _)

section

variable [Compression]

/-- Whether a record is one of a node, as the encoder makes it. -/
structure Encodes (node : Node) (index : Int32) (threshold : Nat) (r : NodeRecord) : Prop where
  decoded : r.decode = .ok node
  index_eq : r.index = index
  key : ∃ key, nodeKey node = .ok key ∧ r.canonicalKey = .ok key
  compressed : r.kind = .compressedLiteral ↔
    ∃ l packed, node = .literal l ∧ l.pack = .ok packed ∧ threshold < packed.length
  plain : r.kind ≠ .compressedLiteral → r.kind = .ofNode node
  reread : ofBytes r.toBytes = .ok r

theorem encodes_compressed (storable : node.Storable) (long : Long node threshold)
    {payload : List UInt8} (expanded : decompress payload = .ok (plainBytes node)) :
    Encodes node index threshold ⟨index, .compressedLiteral, payload⟩ := by
  cases node with
  | literal l =>
    have stores := stores_compressed (Literal.packRefusal?_eq_none_iff.mp storable) expanded index
    exact {
      decoded := stores.decoded
      index_eq := rfl
      key := stores.keyed
      compressed := iff_of_true rfl ((long_iff storable).mp long)
      plain := fun other => absurd rfl other
      reread := ofBytes_toBytes _ }
  | _ => exact absurd long.1 (by simp [RecordKind.ofNode])

theorem encodes_plain (storable : node.Storable) (short : ¬ Long node threshold) :
    Encodes node index threshold ⟨index, .ofNode node, plainBytes node⟩ := by
  have stores := stores_plain storable index
  have uncompressed : RecordKind.ofNode node ≠ .compressedLiteral := by
    cases node <;> simp [RecordKind.ofNode]
  exact {
    decoded := stores.decoded
    index_eq := rfl
    key := stores.keyed
    compressed := iff_of_false uncompressed (mt (long_iff storable).mpr short)
    plain := fun _ => rfl
    reread := ofBytes_toBytes _ }

theorem encodes_encode (lossless : Compression.Lossless) (storable : node.Storable)
    (index : Int32) (threshold : Nat) :
    ∃ r, encode node index threshold = .ok r ∧ Encodes node index threshold r := by
  rw [encode_of_storable storable]
  by_cases long : Long node threshold
  · obtain ⟨payload, made, expanded⟩ := exists_compressed lossless (plainBytes node)
    rw [if_pos long, made]
    exact ⟨_, rfl, encodes_compressed storable long expanded⟩
  · exact ⟨_, if_neg long, encodes_plain storable long⟩

theorem Encodes.withIndex (encodes : Encodes node index threshold r) (new : Int32) :
    Encodes node new threshold { r with index := new } where
  decoded := encodes.decoded
  index_eq := rfl
  key := encodes.key
  compressed := encodes.compressed
  plain := encodes.plain
  reread := ofBytes_toBytes _

/-- A node whose fields fit is encoded, and the record that comes out, which may be given its
index once, is one of the node before and after; only the bytes of the index change. -/
theorem encode_roundTrips (lossless : Compression.Lossless) (node : Node) (index : Int32)
    (threshold : Nat) (fits : ∀ l, node = .literal l → l.FitsPacked) :
    ∃ r, encode node index threshold = .ok r ∧ Encodes node index threshold r ∧
      ∀ new r', r.setIndex new = .ok r' →
        r'.toBytes.length = r.toBytes.length ∧ r'.toBytes.drop 4 = r.toBytes.drop 4 ∧
        Encodes node new threshold r' := by
  obtain ⟨r, encoded, encodes⟩ :=
    encodes_encode lossless (Node.storable_of_fits fits) index threshold
  refine ⟨r, encoded, encodes, fun new r' set => ?_⟩
  obtain ⟨-, -, rfl⟩ := setIndex_eq_ok_iff.mp set
  refine ⟨?_, ?_, encodes.withIndex new⟩
  · simp only [length_toBytes]
  · rw [drop_four_toBytes, drop_four_toBytes]
    rfl

end

/-- A literal with an empty language, which is not an absent one. -/
def longExample : Node := .literal ⟨Gzip.incompressible, some "", none⟩

theorem encode_roundTrips_long :
    Compression.Lossless ∧ (∀ l, longExample = .literal l → l.FitsPacked) ∧
    ∃ r r', encode longExample unassigned 8 = .ok r ∧ r.kind = .compressedLiteral ∧
      r.setIndex 7 = .ok r' ∧ r'.decode = .ok longExample := by
  have fits : ∀ l, longExample = .literal l → l.FitsPacked := by
    rintro l ⟨⟩
    decide
  refine ⟨Gzip.lossless, fits, ?_⟩
  obtain ⟨r, encoded, encodes, kept⟩ :=
    encode_roundTrips Gzip.lossless longExample unassigned 8 fits
  have compressed : r.kind = .compressedLiteral :=
    encodes.compressed.mpr ⟨_, _, rfl, rfl, by decide⟩
  have set : r.setIndex 7 = .ok { r with index := 7 } :=
    setIndex_eq_ok_iff.mpr ⟨encodes.index_eq, by decide, rfl⟩
  obtain ⟨-, -, after⟩ := kept 7 _ set
  exact ⟨r, _, encoded, compressed, set, after.decoded⟩

end NodeRecord

end TripleCube
