import Mathlib.Data.List.Forall2
import TripleCube.Dictionary.Stream
import TripleCube.Outcome
import TripleCube.Proofs.Bytes.Stream
import TripleCube.Proofs.Record.Bytes

/-! The framing of dictionary streams. Records are found exactly where they stand complete behind
their lengths, all of them behind their number, and a source can be cut in one way only. -/
namespace TripleCube.Dictionary

/-- Bytes behind their length. -/
def frame (raw : List UInt8) : List UInt8 := Bytes.big 4 raw.length ++ raw

/-- The bytes of records, each behind its length, behind their number. -/
def frames (raws : List (List UInt8)) : List UInt8 :=
  Bytes.big 4 raws.length ++ raws.flatMap frame

/-- Whether a source begins with the bytes of records, each complete behind its length. What
follows them does not matter. -/
structure Framed (source : Source) (raws : List (List UInt8)) : Prop where
  count : raws.length < 2 ^ 32
  lengths : ∀ raw ∈ raws, raw.length < 2 ^ 32
  bytes : frames raws <+: source.bytes

/-- Whether the bytes of each record are accepted, and as which. -/
def Accepted (raws : List (List UInt8)) (records : List NodeRecord) : Prop :=
  List.Forall₂ (fun raw r => NodeRecord.ofBytes raw = .ok r) raws records

/-- Bytes are accepted as one record at most. -/
theorem Accepted.unique {raws : List (List UInt8)} {records others : List NodeRecord}
    (accepted : Accepted raws records) (again : Accepted raws others) : records = others := by
  induction accepted generalizing others with
  | nil => exact (List.forall₂_nil_left_iff.mp again).symm
  | cons first _ ih =>
    obtain ⟨r, rest, same, later, rfl⟩ := List.forall₂_cons_left_iff.mp again
    rw [Except.ok.inj (first.symm.trans same), ih later]

variable {source rest : Source} {config : Config}

theorem readWord_eq_ok {name : String} {word : UInt32} :
    readWord name source = .ok (word, rest) ↔ source = rest.prepend (Bytes.big 4 word.toNat) := by
  simp only [readWord, bind_eq_ok, Prod.exists, mapError_eq_ok, Source.take_eq_ok, pure,
    Except.pure, Except.ok.injEq, Prod.mk.injEq]
  constructor
  · rintro ⟨digits, _, ⟨width, rfl⟩, rfl, rfl⟩
    have small : Bytes.ofBig digits < 256 ^ 4 := width ▸ Bytes.ofBig_lt digits
    rw [UInt32.toNat_ofNat_of_lt' small, ← width, Bytes.big_ofBig]
  · rintro rfl
    exact ⟨_, rest, ⟨Bytes.length_big 4 _, rfl⟩, Bytes.ofBig_word word, rfl⟩

theorem readRecord_eq_ok {r : NodeRecord} :
    readRecord source = .ok (r, rest) ↔ ∃ raw, raw.length < 2 ^ 32 ∧
      NodeRecord.ofBytes raw = .ok r ∧ source = rest.prepend (frame raw) := by
  simp only [readRecord, bind_eq_ok, Prod.exists, readWord_eq_ok, mapError_eq_ok]
  constructor
  · rintro ⟨length, _, rfl, raw, behind, taken, answer⟩
    split at answer
    · next complete =>
      obtain ⟨other, accepted, same⟩ := bind_eq_ok.mp answer
      cases same
      obtain ⟨-, rfl⟩ := Source.takeUpTo_eq_ok.mp ⟨taken, complete⟩
      refine ⟨raw, complete ▸ length.toNat_lt, accepted, ?_⟩
      rw [Source.prepend_prepend, frame, complete]
    · cases answer
  · rintro ⟨raw, small, accepted, rfl⟩
    have length : (UInt32.ofNat raw.length).toNat = raw.length := UInt32.toNat_ofNat_of_lt' small
    obtain ⟨taken, complete⟩ := Source.takeUpTo_eq_ok.mpr ⟨length.symm, rfl⟩
    refine ⟨UInt32.ofNat raw.length, rest.prepend raw, ?_, raw, rest, taken, ?_⟩
    · rw [length, Source.prepend_prepend, frame]
    · rw [if_pos complete, accepted]
      rfl

theorem readRecords_eq_ok {count : Nat} {records : List NodeRecord} :
    readRecords count source = .ok records ↔ ∃ raws, raws.length = count ∧
      (∀ raw ∈ raws, raw.length < 2 ^ 32) ∧ Accepted raws records ∧
      raws.flatMap frame <+: source.bytes := by
  induction count generalizing source records with
  | zero =>
    simp only [readRecords, Except.ok.injEq, List.length_eq_zero_iff]
    constructor
    · rintro rfl
      exact ⟨[], rfl, by simp, .nil, List.nil_prefix⟩
    · rintro ⟨_, rfl, -, accepted, -⟩
      exact (List.forall₂_nil_left_iff.mp accepted).symm
  | succ count ih =>
    simp only [readRecords, bind_eq_ok, Prod.exists, readRecord_eq_ok, ih, pure, Except.pure,
      Except.ok.injEq]
    constructor
    · rintro ⟨r, behind, ⟨raw, small, accepted, rfl⟩, others, ⟨raws, rfl, lengths, later, stand⟩,
        rfl⟩
      refine ⟨raw :: raws, rfl, List.forall_mem_cons.mpr ⟨small, lengths⟩, .cons accepted later, ?_⟩
      exact (List.prefix_append_right_inj _).mpr stand
    · rintro ⟨raws, length, lengths, accepted, stand⟩
      -- The first record is taken off, and the others stand in front of what it leaves.
      obtain ⟨raw, raws, rfl⟩ := List.exists_cons_of_length_eq_add_one length
      obtain ⟨small, lengths⟩ := List.forall_mem_cons.mp lengths
      obtain ⟨r, others, first, later, rfl⟩ := List.forall₂_cons_left_iff.mp accepted
      have front : frame raw <+: source.bytes := (List.prefix_append _ _).trans stand
      obtain ⟨behind, rfl⟩ := Source.exists_rest_iff.mpr front
      exact ⟨r, behind, ⟨raw, small, first, rfl⟩, others, ⟨raws, Nat.succ.inj length, lengths,
        later, (List.prefix_append_right_inj _).mp stand⟩, rfl⟩

/-- A source is read if it is framed, its records are accepted and they make a dictionary. -/
theorem read_eq_ok [Compression] {d : Dictionary} : read source config = .ok d ↔
    ∃ raws records, Framed source raws ∧ Accepted raws records ∧
      ofRecords records config = .ok d := by
  simp only [read, bind_eq_ok, Prod.exists, readWord_eq_ok, readRecords_eq_ok]
  constructor
  · rintro ⟨count, behind, rfl, records, ⟨raws, length, lengths, accepted, stand⟩, loaded⟩
    refine ⟨raws, records, ⟨length ▸ count.toNat_lt, lengths, ?_⟩, accepted, loaded⟩
    rw [frames, length]
    exact (List.prefix_append_right_inj _).mpr stand
  · rintro ⟨raws, records, framed, accepted, loaded⟩
    have count : (UInt32.ofNat raws.length).toNat = raws.length :=
      UInt32.toNat_ofNat_of_lt' framed.count
    have front : Bytes.big 4 raws.length <+: source.bytes :=
      (List.prefix_append _ _).trans framed.bytes
    obtain ⟨behind, rfl⟩ := Source.exists_rest_iff.mpr front
    exact ⟨UInt32.ofNat raws.length, behind, by rw [count], records, ⟨raws, count.symm,
      framed.lengths, accepted, (List.prefix_append_right_inj _).mp framed.bytes⟩, loaded⟩

/-- The first of several frames is determined by the bytes, and so is what follows it. -/
theorem frame_append_inj {raw other behind behind' : List UInt8} (small : raw.length < 2 ^ 32)
    (otherSmall : other.length < 2 ^ 32) (same : frame raw ++ behind = frame other ++ behind') :
    raw = other ∧ behind = behind' := by
  rw [frame, frame, List.append_assoc, List.append_assoc] at same
  obtain ⟨lengths, same⟩ := List.append_inj same (by simp)
  exact List.append_inj same (Bytes.big_inj small otherSmall lengths)

theorem flatMap_frame_inj {raws others : List (List UInt8)} {behind behind' : List UInt8}
    (lengths : ∀ raw ∈ raws, raw.length < 2 ^ 32)
    (otherLengths : ∀ raw ∈ others, raw.length < 2 ^ 32)
    (count : raws.length = others.length)
    (same : raws.flatMap frame ++ behind = others.flatMap frame ++ behind') : raws = others := by
  induction raws generalizing others with
  | nil => exact (List.length_eq_zero_iff.mp count.symm).symm
  | cons raw raws ih =>
    obtain ⟨other, others, rfl⟩ := List.exists_cons_of_length_eq_add_one count.symm
    obtain ⟨small, later⟩ := List.forall_mem_cons.mp lengths
    obtain ⟨otherSmall, otherLater⟩ := List.forall_mem_cons.mp otherLengths
    rw [List.flatMap_cons, List.flatMap_cons, List.append_assoc, List.append_assoc] at same
    obtain ⟨rfl, remains⟩ := frame_append_inj small otherSmall same
    exact congrArg _ (ih later otherLater (by simpa using count) remains)

/-- A source is cut in one way only. -/
theorem Framed.unique {raws others : List (List UInt8)} (framed : Framed source raws)
    (otherFramed : Framed source others) : raws = others := by
  obtain ⟨behind, same⟩ := framed.bytes
  obtain ⟨behind', otherSame⟩ := otherFramed.bytes
  rw [← otherSame, frames, frames, List.append_assoc, List.append_assoc] at same
  obtain ⟨counts, same⟩ := List.append_inj same (by simp)
  have count := Bytes.big_inj framed.count otherFramed.count counts
  exact flatMap_frame_inj framed.lengths otherFramed.lengths count same

/-- A stream is framed by the bytes of its records. -/
theorem framed_stream {records : List NodeRecord} (count : records.length < 2 ^ 32)
    (lengths : ∀ r ∈ records, r.toBytes.length < 2 ^ 32)
    (begins : stream records <+: source.bytes) :
    Framed source (records.map NodeRecord.toBytes) where
  count := by simpa using count
  lengths := by simpa using lengths
  bytes := by
    rw [frames, List.flatMap_map, List.length_map]
    exact begins

theorem accepted_toBytes (records : List NodeRecord) :
    Accepted (records.map NodeRecord.toBytes) records :=
  List.forall₂_map_left_iff.mpr
    (List.forall₂_same.mpr fun r _ => NodeRecord.ofBytes_toBytes r)

end TripleCube.Dictionary
