import TripleCube.Outcome
import TripleCube.Proofs.Bytes.Stream
import TripleCube.Snapshot.CubeSnapshot

/-! Value encodings read in both directions. A decoder succeeds exactly where the encoding of a
value stands, and then yields that value and leaves what is behind it. -/
namespace TripleCube.Snapshot

namespace Codec

variable {α β : Type}

/-- A decoder finds a value exactly at the front of its encoding, if the value fits. -/
def Lawful (codec : Codec α) (Fits : α → Prop) : Prop :=
  ∀ source value rest, codec.decode source = .ok (value, rest) ↔
    Fits value ∧ source = rest.prepend (codec.encode value)

theorem takeBytes_eq_ok {source rest : Source} {count : Nat} {bytes : List UInt8} :
    takeBytes count source = .ok (bytes, rest) ↔
      bytes.length = count ∧ source = rest.prepend bytes :=
  mapError_eq_ok.trans Source.take_eq_ok

/-- A word is read back if its value as a number fits the width and every such number is one. -/
theorem lawful_word {width : Nat} {toNat : α → Nat} {ofNat : Nat → α}
    (ofNat_toNat : ∀ value, ofNat (toNat value) = value)
    (small : ∀ value, toNat value < 256 ^ width)
    (toNat_ofNat : ∀ n, n < 256 ^ width → toNat (ofNat n) = n) :
    (word width toNat ofNat).Lawful fun _ => True := by
  intro source value rest
  simp only [word, bind_eq_ok, Prod.exists, takeBytes_eq_ok, pure, Except.pure,
    Except.ok.injEq, Prod.mk.injEq, true_and]
  constructor
  · rintro ⟨digits, behind, ⟨rfl, rfl⟩, rfl, rfl⟩
    rw [toNat_ofNat _ (Bytes.ofLittle_lt digits), Bytes.little_ofLittle]
  · rintro rfl
    refine ⟨Bytes.little width (toNat value), rest, ⟨Bytes.length_little _ _, rfl⟩, ?_, rfl⟩
    rw [Bytes.ofLittle_little, Nat.mod_eq_of_lt (small value), ofNat_toNat]

theorem lawful_uint32 : uint32.Lawful fun _ => True :=
  lawful_word (fun _ => UInt32.ofNat_toNat) UInt32.toNat_lt fun _ => UInt32.toNat_ofNat_of_lt'

theorem lawful_uint64 : uint64.Lawful fun _ => True :=
  lawful_word (fun _ => UInt64.ofNat_toNat) UInt64.toNat_lt fun _ => UInt64.toNat_ofNat_of_lt'

theorem lawful_int32 : int32.Lawful fun _ => True := by
  refine lawful_word (fun value => ?_) (fun value => value.toUInt32.toNat_lt) fun n small => ?_
  · rw [UInt32.ofNat_toNat, Int32.toInt32_toUInt32]
  · rw [UInt32.toUInt32_toInt32, UInt32.toNat_ofNat_of_lt' small]

theorem lawful_int64 : int64.Lawful fun _ => True := by
  refine lawful_word (fun value => ?_) (fun value => value.toUInt64.toNat_lt) fun n small => ?_
  · rw [UInt64.ofNat_toNat, Int64.toInt64_toUInt64]
  · rw [UInt64.toUInt64_toInt64, UInt64.toNat_ofNat_of_lt' small]

variable {first : Codec α} {second : Codec β} {Fits : α → Prop} {FitsToo : β → Prop}

theorem Lawful.pair (lawful : first.Lawful Fits) (lawfulToo : second.Lawful FitsToo) :
    (first.pair second).Lawful fun value => Fits value.1 ∧ FitsToo value.2 := by
  rintro source ⟨a, b⟩ rest
  simp only [Codec.pair, bind_eq_ok, Prod.exists, lawful _ _ _, lawfulToo _ _ _, pure, Except.pure,
    Except.ok.injEq, Prod.mk.injEq]
  constructor
  · rintro ⟨a, between, ⟨fits, rfl⟩, b, behind, ⟨fitsToo, rfl⟩, ⟨rfl, rfl⟩, rfl⟩
    exact ⟨⟨fits, fitsToo⟩, Source.prepend_prepend _ _ _⟩
  · rintro ⟨⟨fits, fitsToo⟩, rfl⟩
    exact ⟨a, _, ⟨fits, (Source.prepend_prepend _ _ _).symm⟩, b, rest, ⟨fitsToo, rfl⟩,
      ⟨rfl, rfl⟩, rfl⟩

theorem Lawful.decodeMany_eq_ok (lawful : first.Lawful Fits) {count : Nat} {source rest : Source}
    {values : List α} :
    decodeMany first.decode count source = .ok (values, rest) ↔
      values.length = count ∧ (∀ value ∈ values, Fits value) ∧
        source = rest.prepend (values.flatMap first.encode) := by
  induction count generalizing source values rest with
  | zero =>
    rw [decodeMany, List.length_eq_zero_iff, Except.ok.injEq, Prod.mk.injEq]
    constructor
    · rintro ⟨rfl, rfl⟩
      exact ⟨rfl, by simp, rfl⟩
    · rintro ⟨rfl, -, rfl⟩
      exact ⟨rfl, rfl⟩
  | succ count ih =>
    simp only [decodeMany, bind_eq_ok, Prod.exists, lawful _ _ _, ih, pure, Except.pure,
      Except.ok.injEq, Prod.mk.injEq]
    constructor
    · rintro ⟨value, between, ⟨fits, rfl⟩, others, behind, ⟨rfl, fit, rfl⟩, rfl, rfl⟩
      exact ⟨rfl, List.forall_mem_cons.mpr ⟨fits, fit⟩, Source.prepend_prepend _ _ _⟩
    · rintro ⟨length, fit, rfl⟩
      obtain ⟨value, others, rfl⟩ := List.exists_cons_of_length_eq_add_one length
      obtain ⟨fits, fit⟩ := List.forall_mem_cons.mp fit
      exact ⟨value, _, ⟨fits, (Source.prepend_prepend _ _ _).symm⟩, others, rest,
        ⟨Nat.succ.inj length, fit, rfl⟩, rfl, rfl⟩

/-- A list fits if its values do and its length is a word. -/
theorem Lawful.list (lawful : first.Lawful Fits) :
    (Codec.list first).Lawful fun values =>
      values.length < 2 ^ 64 ∧ ∀ value ∈ values, Fits value := by
  intro source values rest
  simp only [Codec.list, bind_eq_ok, Prod.exists, lawful_uint64 _ _ _, lawful.decodeMany_eq_ok]
  constructor
  · rintro ⟨count, between, ⟨-, rfl⟩, length, fit, rfl⟩
    refine ⟨⟨length ▸ count.toNat_lt, fit⟩, ?_⟩
    simp [length]
  · rintro ⟨⟨small, fit⟩, rfl⟩
    refine ⟨values.length.toUInt64, _, ⟨trivial, (Source.prepend_prepend _ _ _).symm⟩, ?_, fit, rfl⟩
    exact (UInt64.toNat_ofNat_of_lt' small).symm

/-- Reading succeeds where decoding does. -/
theorem Lawful.read_eq_ok (lawful : first.Lawful Fits) {source : Source} {value : α} :
    first.read source = .ok value ↔ Fits value ∧ first.encode value <+: source.bytes := by
  rw [← Source.exists_rest_iff, ← exists_and_left]
  simp only [← lawful _ _ _, read]
  constructor
  · intro answer
    split at answer
    · next decoded => exact ⟨_, Except.ok.inj answer ▸ decoded⟩
    · cases answer
    · cases answer
  · rintro ⟨rest, decoded⟩
    rw [decoded]

end Codec

theorem lawful_voxel : voxel.Lawful fun _ => True := by
  have lawful := Codec.lawful_int32.pair (Codec.lawful_int32.pair Codec.lawful_int32)
  rintro source ⟨x, y, z⟩ rest
  simp only [voxel, bind_eq_ok, Prod.exists, lawful _ _ _, pure, Except.pure, Except.ok.injEq,
    Prod.mk.injEq, Voxel.mk.injEq, true_and]
  constructor
  · rintro ⟨_, _, _, _, rfl, ⟨rfl, rfl, rfl⟩, rfl⟩
    rfl
  · rintro rfl
    exact ⟨x, y, z, rest, rfl, ⟨rfl, rfl, rfl⟩, rfl⟩

/-- The bytes of a snapshot: the page size, the counter, the number of the cells, and of each
cell its coordinates, every word with the least byte first. -/
def layout (size : UInt32) (counter : Int64) (cells : List Voxel) : List UInt8 :=
  Bytes.little 4 size.toNat ++ Bytes.little 8 counter.toUInt64.toNat ++
    Bytes.little 8 cells.length ++ cells.flatMap fun v =>
      Bytes.little 4 v.x.toUInt32.toNat ++ Bytes.little 4 v.y.toUInt32.toNat ++
        Bytes.little 4 v.z.toUInt32.toNat

/-- Whether a source begins with a complete snapshot. The number of the cells is a word. -/
def Begins (source : Source) (size : UInt32) (counter : Int64) (cells : List Voxel) : Prop :=
  cells.length < 2 ^ 64 ∧ layout size counter cells <+: source.bytes

theorem encode_image {size : UInt32} {counter : Int64} {cells : List Voxel}
    (small : cells.length < 2 ^ 64) :
    image.encode (size, counter, cells) = layout size counter cells := by
  have length : cells.length.toUInt64.toNat = cells.length := UInt64.toNat_ofNat_of_lt' small
  simp only [image, Codec.pair, Codec.list, Codec.uint32, Codec.int64, Codec.uint64, Codec.word,
    voxel, Codec.int32, layout, length, List.append_assoc]

theorem lawful_image : image.Lawful fun content => content.2.2.length < 2 ^ 64 := by
  have lawful := Codec.lawful_uint32.pair (Codec.lawful_int64.pair lawful_voxel.list)
  intro source content rest
  simpa [image] using lawful source content rest

theorem read_image_eq_ok {source : Source} {size : UInt32} {counter : Int64} {cells : List Voxel} :
    image.read source = .ok (size, counter, cells) ↔ Begins source size counter cells := by
  rw [lawful_image.read_eq_ok, Begins]
  exact and_congr_right fun small => by rw [encode_image small]

/-- A source begins with one snapshot at most. -/
theorem Begins.unique {source : Source} {size size' : UInt32} {counter counter' : Int64}
    {cells cells' : List Voxel} (begins : Begins source size counter cells)
    (begins' : Begins source size' counter' cells') :
    size = size' ∧ counter = counter' ∧ cells = cells' := by
  have read := read_image_eq_ok.mpr begins
  rw [read_image_eq_ok.mpr begins'] at read
  simpa [eq_comm] using Except.ok.inj read

theorem layout_inj {size : UInt32} {counter : Int64} {cells cells' : List Voxel}
    (small : cells.length < 2 ^ 64) (small' : cells'.length < 2 ^ 64)
    (same : layout size counter cells = layout size counter cells') : cells = cells' := by
  have begins : Begins ⟨layout size counter cells, none⟩ size counter cells :=
    ⟨small, List.prefix_refl _⟩
  have begins' : Begins ⟨layout size counter cells, none⟩ size counter cells' :=
    ⟨small', same ▸ List.prefix_refl _⟩
  exact (begins.unique begins').2.2

end TripleCube.Snapshot
