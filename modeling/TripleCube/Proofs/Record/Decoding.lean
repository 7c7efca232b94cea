import TripleCube.Gzip.Compression
import TripleCube.Proofs.Record.Bytes
import TripleCube.Proofs.Record.Key

/-! Records of any origin. The bytes that are accepted are those that a record is written as,
so behind a valid hash the payload may be anything. Such a record has the key of a node in one
of two forms, plain or compressed, and in these forms, and no other, it decodes to the node. -/
namespace TripleCube

namespace NodeRecord

theorem toBytes_of_ofBytes {bytes : List UInt8} {r : NodeRecord}
    (accepted : ofBytes bytes = .ok r) : r.toBytes = bytes := by
  rw [ofBytes] at accepted
  split at accepted
  · cases accepted
  · next tag payload behind =>
    have long : headerSize - 1 < bytes.length := by
      have counted := congrArg List.length behind
      simp only [List.length_drop, List.length_cons] at counted
      omega
    simp only [headerSize] at long
    have index : bytes.take 4 = _ := Literal.take_eq_big (by omega)
    have hashed : (bytes.drop 4).take 4 = _ :=
      Literal.take_eq_big (by rw [List.length_drop]; omega)
    split at accepted
    · cases accepted
    · next kind known =>
      dsimp only at accepted
      split at accepted
      · next agree =>
        cases accepted
        rw [Literal.lengthWord, agree, ← RecordKind.tag_eq_of_ofTag known] at hashed
        rw [Literal.lengthWord] at index
        rw [toBytes, head, contentKey, hash, UInt32.toUInt32_toInt32, ← index, ← hashed,
          RecordKind.tag_eq_of_ofTag known, ← behind, ← List.take_add]
        exact List.take_append_drop (headerSize - 1) bytes
      · cases accepted

/-- What is accepted is what is written. -/
theorem ofBytes_eq_ok_iff {bytes : List UInt8} {r : NodeRecord} :
    ofBytes bytes = .ok r ↔ bytes = r.toBytes := by
  constructor
  · intro accepted
    exact (toBytes_of_ofBytes accepted).symm
  · rintro rfl
    exact ofBytes_toBytes r

section

variable [Compression]

/-- The two forms in which a record has the key of a node. -/
theorem canonicalKey_eq_keyOf_iff {r : NodeRecord} {node : Node} :
    r.canonicalKey = .ok (keyOf node) ↔
      (r.kind = .ofNode node ∧ r.payload = plainBytes node) ∨
      (r.kind = .compressedLiteral ∧
        ∃ l, node = .literal l ∧ decompress r.payload = .ok l.packedBytes) := by
  obtain ⟨index, kind, payload⟩ := r
  by_cases compressed : kind = .compressedLiteral
  · subst compressed
    have other : RecordKind.compressedLiteral ≠ .ofNode node := by
      cases node <;> simp [RecordKind.ofNode]
    simp only [canonicalKey, bind_eq_ok, other, false_and, false_or, true_and]
    constructor
    · rintro ⟨packed, expanded, same⟩
      have key : RecordKind.literal.tag :: packed = keyOf node := Except.ok.inj same
      obtain ⟨kinds, rfl⟩ : RecordKind.literal = .ofNode node ∧ packed = plainBytes node := by
        simpa [keyOf, RecordKind.tag_inj] using key
      cases node with
      | literal l => exact ⟨l, rfl, expanded⟩
      | _ => cases kinds
    · rintro ⟨l, rfl, expanded⟩
      exact ⟨_, expanded, rfl⟩
  · have plain : canonicalKey ⟨index, kind, payload⟩ = .ok (kind.tag :: payload) := by
      cases kind with
      | compressedLiteral => exact absurd rfl compressed
      | _ => rfl
    simp [plain, keyOf, RecordKind.tag_inj, compressed]

/-- A record decodes to the node whose key it has, and to no other. -/
theorem decode_eq_ok_iff {r : NodeRecord} {node : Node} (kind : r.kind ≠ .any) :
    r.decode = .ok node ↔ ∃ key, nodeKey node = .ok key ∧ r.canonicalKey = .ok key := by
  constructor
  · intro decoded
    obtain ⟨stores, -⟩ := stores_of_decode decoded kind
    exact stores.keyed
  · rintro ⟨key, identified, keyed⟩
    obtain ⟨storable, rfl⟩ := nodeKey_eq_ok_iff.mp identified
    rcases canonicalKey_eq_keyOf_iff.mp keyed with
      ⟨sameKind, samePayload⟩ | ⟨compressed, l, rfl, expanded⟩
    · obtain ⟨index, _, _⟩ := r
      subst sameKind samePayload
      exact decode_plain storable index
    · obtain ⟨index, _, payload⟩ := r
      subst compressed
      exact (stores_compressed (Literal.packRefusal?_eq_none_iff.mp storable) expanded _).decoded

/-- Bytes of any origin that are accepted decode to a node exactly when they have its key,
and two of them decode to the same node exactly when both decode and have the same key. It
does not matter which of them are compressed, nor how. -/
theorem decodes_by_key :
    ∀ bytes r, ofBytes bytes = .ok r → r.kind ≠ .any →
      (∀ node, r.decode = .ok node ↔
        ∃ key, nodeKey node = .ok key ∧ r.canonicalKey = .ok key) ∧
      ∀ bytes' s, ofBytes bytes' = .ok s → s.kind ≠ .any →
        ((∃ node, r.decode = .ok node ∧ s.decode = .ok node) ↔
          (∃ a, r.decode = .ok a) ∧ (∃ b, s.decode = .ok b) ∧
            ∃ key, r.canonicalKey = .ok key ∧ s.canonicalKey = .ok key) := by
  intro bytes r _ kind
  refine ⟨fun node => decode_eq_ok_iff kind, fun bytes' s _ kind' => ?_⟩
  constructor
  · rintro ⟨node, first, second⟩
    obtain ⟨stores, -⟩ := stores_of_decode first kind
    obtain ⟨stores', -⟩ := stores_of_decode second kind'
    exact ⟨⟨node, first⟩, ⟨node, second⟩, keyOf node, stores.key, stores'.key⟩
  · rintro ⟨⟨a, first⟩, -, key, keyed, keyed'⟩
    obtain ⟨known, identified, own⟩ := (decode_eq_ok_iff kind).mp first
    cases keyed.symm.trans own
    exact ⟨a, first, (decode_eq_ok_iff kind').mpr ⟨key, identified, keyed'⟩⟩

end

/-- A short literal, stored as it is. -/
def plainExample : NodeRecord :=
  ⟨0, .literal, [0, 0, 0, 1, 0x61, 255, 255, 255, 255, 255, 255, 255, 255]⟩

/-- The same literal in a stream that is never written: its header has a name, and its one
block is coded. -/
def foreignExample : NodeRecord :=
  ⟨1, .compressedLiteral,
    [31, 139, 8, 8, 0, 0, 0, 0, 2, 3, 120, 0, 99, 96, 96, 96, 76, 252, 15, 5, 0, 46, 184, 200,
      239, 13, 0, 0, 0]⟩

theorem decodes_by_key_foreign :
    (ofBytes plainExample.toBytes = .ok plainExample ∧ plainExample.kind ≠ .any) ∧
    (ofBytes foreignExample.toBytes = .ok foreignExample ∧ foreignExample.kind ≠ .any) ∧
    plainExample.decode = .ok (.literal ⟨"a", none, none⟩) ∧
    ∃ node, plainExample.decode = .ok node ∧ foreignExample.decode = .ok node := by
  have plain : plainExample.decode = .ok (.literal ⟨"a", none, none⟩) :=
    eq_ok_of_toOption (by decide +kernel)
  have foreign : foreignExample.decode = .ok (.literal ⟨"a", none, none⟩) :=
    eq_ok_of_toOption (by decide +kernel)
  have key : foreignExample.canonicalKey = .ok plainExample.contentKey :=
    eq_ok_of_toOption (by decide +kernel)
  have accepted := ofBytes_toBytes plainExample
  have accepted' := ofBytes_toBytes foreignExample
  have kind : plainExample.kind ≠ .any := by decide
  have kind' : foreignExample.kind ≠ .any := by decide
  refine ⟨⟨accepted, kind⟩, ⟨accepted', kind'⟩, plain, ?_⟩
  exact ((decodes_by_key _ _ accepted kind).2 _ _ accepted' kind').mpr
    ⟨⟨_, plain⟩, ⟨_, foreign⟩, _, rfl, key⟩

end NodeRecord

end TripleCube
