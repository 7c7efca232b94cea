import TripleCube.Proofs.Checksum
import TripleCube.Proofs.Record.Decoding
import TripleCube.Proofs.Record.Encoding

/-! Damaged records. A record is not read where its hash was changed, nor where up to four
bytes next to each other were changed behind the hash. The index is not covered by the hash:
with another index the bytes are a record of the same content. -/
namespace TripleCube

/-- Bytes that were changed from one position up to another at most. -/
structure DamagedWithin (start stop : Nat) (bytes damaged : List UInt8) : Prop where
  length : damaged.length = bytes.length
  before : damaged.take start = bytes.take start
  after : damaged.drop stop = bytes.drop stop

namespace DamagedWithin

variable {start stop : Nat} {bytes damaged : List UInt8}

theorem take_eq (within : DamagedWithin start stop bytes damaged) {count : Nat}
    (early : count ≤ start) : damaged.take count = bytes.take count := by
  have firsts := congrArg (List.take count) within.before
  rwa [List.take_take, List.take_take, Nat.min_eq_left early] at firsts

theorem drop (within : DamagedWithin start stop bytes damaged) {count : Nat}
    (early : count ≤ start) (ordered : start ≤ stop) :
    DamagedWithin (start - count) (stop - count) (bytes.drop count) (damaged.drop count) where
  length := by rw [List.length_drop, List.length_drop, within.length]
  before := by
    rw [List.take_drop, List.take_drop, Nat.add_sub_cancel' early, within.before]
  after := by
    rw [List.drop_drop, List.drop_drop, Nat.add_sub_cancel' (early.trans ordered), within.after]

/-- A burst of up to four bytes changes the check. -/
theorem eq_of_checksum_eq {crc : Crc} (unit : crc.generator.coeff 0 ≠ 0)
    (within : DamagedWithin start (start + 4) bytes damaged)
    (same : crc.checksum damaged = crc.checksum bytes) : damaged = bytes := by
  have parts : ∀ all : List UInt8,
      all = all.take start ++ ((all.drop start).take 4 ++ all.drop (start + 4)) := fun all => by
    rw [← List.drop_drop, List.take_append_drop, List.take_append_drop]
  rw [parts damaged, parts bytes, within.before, within.after] at same ⊢
  have length : ((damaged.drop start).take 4).length = ((bytes.drop start).take 4).length := by
    simp only [List.length_take, List.length_drop, within.length]
  rw [Crc.window_eq_of_checksum_eq unit (List.length_take_le 4 _) length same]

end DamagedWithin

namespace NodeRecord

/-- Bytes that are not a record. -/
def Rejected (bytes : List UInt8) : Prop := ∃ fault, ofBytes bytes = .error (.invalidRecord fault)

theorem accepted_or_rejected (bytes : List UInt8) :
    (∃ r, ofBytes bytes = .ok r) ∨ Rejected bytes := by
  rw [Rejected, ofBytes]
  split
  · exact .inr ⟨_, rfl⟩
  · split
    · exact .inr ⟨_, rfl⟩
    · dsimp only
      split
      · exact .inl ⟨_, rfl⟩
      · exact .inr ⟨_, rfl⟩

variable {bytes damaged : List UInt8} {r s : NodeRecord}

theorem eq_of_contentKey_eq (index : s.toBytes.take 4 = r.toBytes.take 4)
    (content : s.contentKey = r.contentKey) : s.toBytes = r.toBytes := by
  have hashes : s.hash = r.hash := congrArg Crc.castagnoli.checksum content
  rw [← List.take_append_drop 4 s.toBytes, ← List.take_append_drop 4 r.toBytes, index,
    drop_four_toBytes, drop_four_toBytes, hashes, content]

/-- The hash that is stored follows from the content. -/
theorem eq_of_hash_damaged (within : DamagedWithin 4 8 r.toBytes s.toBytes) :
    s.toBytes = r.toBytes := by
  refine eq_of_contentKey_eq within.before ?_
  rw [← drop_toBytes, ← drop_toBytes]
  exact within.after

/-- The content is checked against the hash that was stored before it was damaged. -/
theorem eq_of_content_damaged {start : Nat} (behind : 8 ≤ start)
    (within : DamagedWithin start (start + 4) r.toBytes s.toBytes) : s.toBytes = r.toBytes := by
  have firsts : ∀ count ≤ 8, s.toBytes.take count = r.toBytes.take count :=
    fun count few => within.take_eq (few.trans behind)
  have hashes : s.hash = r.hash := by
    have stored := congrArg (List.drop 4) (firsts 8 (Nat.le_refl 8))
    rw [List.drop_take, List.drop_take, take_drop_toBytes, take_drop_toBytes] at stored
    exact UInt32.toNat_inj.mp (Bytes.big_inj s.hash.toNat_lt r.hash.toNat_lt stored)
  have content := within.drop behind (Nat.le_add_right start 4)
  rw [Nat.sub_add_comm behind] at content
  refine eq_of_contentKey_eq (firsts 4 (by decide)) ?_
  have contents : ∀ t : NodeRecord, t.toBytes.drop 8 = t.contentKey := drop_toBytes
  rw [contents, contents] at content
  exact content.eq_of_checksum_eq Crc.castagnoli_unit hashes

/-- Damage that can only be undone leaves no record. -/
theorem rejected_of_eq (accepted : ofBytes bytes = .ok r) (changed : damaged ≠ bytes)
    (undone : ∀ s : NodeRecord, s.toBytes = damaged → s.toBytes = r.toBytes) :
    Rejected damaged := by
  refine (accepted_or_rejected damaged).resolve_left ?_
  rintro ⟨s, read⟩
  have same := undone s (toBytes_of_ofBytes read)
  rw [toBytes_of_ofBytes read, toBytes_of_ofBytes accepted] at same
  exact changed same

/-- With the first four bytes the index is changed and nothing else. -/
theorem ofBytes_of_index_damaged (within : DamagedWithin 0 4 r.toBytes damaged) :
    ∃ index, ofBytes damaged = .ok { r with index } := by
  have long : 4 ≤ damaged.length := by
    rw [within.length, length_toBytes, headerSize]
    omega
  have behind : damaged.drop 4 = Bytes.big 4 r.hash.toNat ++ r.contentKey :=
    within.after.trans r.drop_four_toBytes
  refine ⟨(Literal.lengthWord damaged).toInt32, ofBytes_eq_ok_iff.mpr ?_⟩
  rw [toBytes, head, List.append_assoc, UInt32.toUInt32_toInt32, ← Literal.take_eq_big long]
  calc damaged = damaged.take 4 ++ damaged.drop 4 := (List.take_append_drop 4 damaged).symm
    _ = _ := by rw [behind]; rfl

/-- What damage to the bytes of a record does. The hash, which is the CRC-32/ISCSI of tag and
payload, stands in bytes four to eight. -/
theorem damage_found [Compression] (accepted : ofBytes bytes = .ok r) :
    (∀ damaged, DamagedWithin 4 8 bytes damaged → damaged ≠ bytes → Rejected damaged) ∧
    (∀ start damaged, 8 ≤ start → DamagedWithin start (start + 4) bytes damaged →
      damaged ≠ bytes → Rejected damaged) ∧
    (∀ damaged, DamagedWithin 0 4 bytes damaged → ∃ s, ofBytes damaged = .ok s ∧
      s.decode = r.decode ∧ s.canonicalKey = r.canonicalKey ∧ s.hash = r.hash) ∧
    (bytes.drop 4).take 4 = Bytes.big 4 r.hash.toNat ∧ Crc.IsIscsi (bytes.drop 8) r.hash := by
  obtain rfl := toBytes_of_ofBytes accepted
  refine ⟨?hash, ?content, ?index, r.take_drop_toBytes, ?check⟩
  case hash =>
    intro damaged within changed
    refine rejected_of_eq accepted changed ?_
    rintro s rfl
    exact eq_of_hash_damaged within
  case content =>
    intro start damaged behind within changed
    refine rejected_of_eq accepted changed ?_
    rintro s rfl
    exact eq_of_content_damaged behind within
  case index =>
    intro damaged within
    obtain ⟨index, read⟩ := ofBytes_of_index_damaged within
    exact ⟨_, read, rfl, rfl, rfl⟩
  case check =>
    have content : r.toBytes.drop 8 = r.contentKey := r.drop_toBytes
    rw [content, Crc.isIscsi_iff]
    rfl

/-- Another letter, another hash and another index in the bytes of a record. -/
theorem damage_found_letter :
    let r : NodeRecord := ⟨5, .uri, [0x78]⟩
    Rejected (r.toBytes.set 9 0x79) ∧ Rejected (r.toBytes.set 4 0) ∧
      ∃ s, ofBytes (r.toBytes.set 3 6) = .ok s ∧ s.decode = r.decode ∧
        s.canonicalKey = r.canonicalKey ∧ s.hash = r.hash := by
  intro r
  obtain ⟨hash, content, index, -⟩ := damage_found (ofBytes_toBytes r)
  refine ⟨content 9 _ (by decide) ⟨?_, ?_, ?_⟩ ?_, hash _ ⟨?_, ?_, ?_⟩ ?_, index _ ⟨?_, ?_, ?_⟩⟩
  all_goals decide +kernel

end NodeRecord

end TripleCube
