import TripleCube.Proofs.Bytes.Stream
import TripleCube.Record.Basic

/-! Records as bytes. A record is read back from the bytes as which it is written. -/
namespace TripleCube.NodeRecord

theorem length_head (r : NodeRecord) : r.head.length = headerSize - 1 := by
  simp [head, headerSize]

theorem take_toBytes (r : NodeRecord) : r.toBytes.take 4 = Bytes.big 4 r.index.toUInt32.toNat := by
  rw [toBytes, head, List.append_assoc]
  exact List.take_left' (Bytes.length_big 4 _)

theorem take_drop_toBytes (r : NodeRecord) :
    (r.toBytes.drop 4).take 4 = Bytes.big 4 r.hash.toNat := by
  rw [toBytes, head, List.append_assoc, List.drop_left' (Bytes.length_big 4 _)]
  exact List.take_left' (Bytes.length_big 4 _)

theorem drop_toBytes (r : NodeRecord) : r.toBytes.drop (headerSize - 1) = r.contentKey := by
  rw [toBytes]
  exact List.drop_left' r.length_head

theorem ofBytes_toBytes (r : NodeRecord) : ofBytes r.toBytes = .ok r := by
  rw [ofBytes, drop_toBytes, contentKey]
  dsimp only
  rw [RecordKind.ofTag_tag, take_toBytes, take_drop_toBytes, Bytes.ofBig_word, Bytes.ofBig_word]
  exact if_pos rfl

end TripleCube.NodeRecord
