import TripleCube.Proofs.Snapshot.Reload

/-! Snapshots that are torn off. Wherever the bytes of a value end before it is complete, decoding
it fails for lack of bytes, so that a cube is neither read from a part of its snapshot nor written
to a sink that takes only a part. -/
namespace TripleCube

namespace Snapshot

namespace Codec

variable {α β : Type} {first : Codec α} {second : Codec β} {Fits : α → Prop} {FitsToo : β → Prop}

/-- An encoding that is torn off anywhere is found to have ended. -/
def Breaks (codec : Codec α) (Fits : α → Prop) : Prop :=
  ∀ value n, Fits value → n < (codec.encode value).length →
    codec.decode (.torn (codec.encode value) n) = .error (.source .ended)

theorem breaks_word {width : Nat} {toNat : α → Nat} {ofNat : Nat → α} :
    (word width toNat ofNat).Breaks fun _ => True := by
  intro value n _ short
  have length : (Bytes.little width (toNat value)).length = width := Bytes.length_little _ _
  rw [word, length] at short
  simp only [word, takeBytes, Source.take_torn length short]
  rfl

theorem breaks_uint64 : uint64.Breaks fun _ => True := breaks_word

theorem breaks_int32 : int32.Breaks fun _ => True := breaks_word

theorem Lawful.breaks_pair (lawful : first.Lawful Fits) (breaks : first.Breaks Fits)
    (breaksToo : second.Breaks FitsToo) :
    (first.pair second).Breaks fun value => Fits value.1 ∧ FitsToo value.2 := by
  rintro ⟨a, b⟩ n ⟨fits, fitsToo⟩ short
  simp only [Codec.pair] at short ⊢
  rcases Source.torn_append_cases short with ⟨within, torn⟩ | ⟨m, within, torn⟩
  · rw [torn, breaks a n fits within]
    rfl
  · rw [torn, (lawful _ a _).mpr ⟨fits, rfl⟩]
    simp only [bind, Except.bind, breaksToo b m fitsToo within]

theorem Lawful.breaks_many (lawful : first.Lawful Fits) (breaks : first.Breaks Fits)
    {values : List α} (fit : ∀ value ∈ values, Fits value) {n : Nat}
    (short : n < (values.flatMap first.encode).length) :
    decodeMany first.decode values.length (.torn (values.flatMap first.encode) n) =
      .error (.source .ended) := by
  induction values generalizing n with
  | nil => simp at short
  | cons value rest ih =>
    rw [List.forall_mem_cons] at fit
    rw [List.flatMap_cons] at short ⊢
    rw [List.length_cons, decodeMany]
    rcases Source.torn_append_cases short with ⟨within, torn⟩ | ⟨m, within, torn⟩
    · rw [torn, breaks value n fit.1 within]
      rfl
    · rw [torn, (lawful _ value _).mpr ⟨fit.1, rfl⟩]
      simp only [bind, Except.bind, ih fit.2 within]

theorem Lawful.breaks_list (lawful : first.Lawful Fits) (breaks : first.Breaks Fits) :
    (Codec.list first).Breaks fun values =>
      values.length < 2 ^ 64 ∧ ∀ value ∈ values, Fits value := by
  rintro values n ⟨small, fit⟩ short
  have length : values.length.toUInt64.toNat = values.length := UInt64.toNat_ofNat_of_lt' small
  simp only [Codec.list] at short ⊢
  rcases Source.torn_append_cases short with ⟨within, torn⟩ | ⟨m, within, torn⟩
  · rw [torn, breaks_uint64 _ n trivial within]
    rfl
  · rw [torn, (lawful_uint64 _ _ _).mpr ⟨trivial, rfl⟩]
    simp only [bind, Except.bind, length, lawful.breaks_many breaks fit within]

end Codec

theorem breaks_voxel : voxel.Breaks fun _ => True := by
  have breaks := Codec.lawful_int32.breaks_pair Codec.breaks_int32
    (Codec.lawful_int32.breaks_pair Codec.breaks_int32 Codec.breaks_int32)
  intro v n _ short
  have ended := breaks (v.x, v.y, v.z) n ⟨trivial, trivial, trivial⟩ short
  simp only [voxel, ended, bind, Except.bind]

theorem breaks_image : image.Breaks fun content => content.2.2.length < 2 ^ 64 := by
  have breaks := Codec.lawful_uint32.breaks_pair Codec.breaks_word
    (Codec.lawful_int64.breaks_pair Codec.breaks_word (lawful_voxel.breaks_list breaks_voxel))
  intro content n small short
  exact breaks content n ⟨trivial, trivial, small, fun _ _ => trivial⟩ short

end Snapshot

namespace Cube

variable {p : PageSize} {c : Cube p}

/-- A cube is not read from a part of its snapshot. -/
theorem read_torn (small : c.cardinality < 2 ^ 64) (wf : c.WellFormed) {n : Nat}
    (short : n < c.snapshot.length) :
    read (.torn c.snapshot n) = .error (.snapshot .truncated) := by
  have listed : c.image.2.2.length < 2 ^ 64 := length_voxels wf ▸ small
  have ended := Snapshot.breaks_image c.image n listed short
  rw [read, Snapshot.Codec.read, snapshot, ended]
  rfl

theorem write_snapshot (c : Cube p) : c.write .unlimited = .ok { accepted := c.snapshot } :=
  congrArg _ (Sink.write_eq rfl _)

/-- A cube is read wherever its snapshot stands first. -/
theorem read_of_begins (reached : c.Reachable) (small : c.cardinality < 2 ^ 64)
    {source : Source} (begins : c.snapshot <+: source.bytes) : read source = .ok ⟨p, c⟩ := by
  obtain ⟨voxels, represents⟩ := reached.represents
  have listed : c.voxels.length < 2 ^ 64 := length_voxels represents.wf ▸ small
  rw [snapshot, image, Snapshot.encode_image listed] at begins
  refine read_eq_ok.mpr ⟨c.voxels, ⟨listed, begins⟩, ?_⟩
  rwa [represents.toFinset_voxels]

/-- A sink takes all of a snapshot, or says why it does not. -/
theorem write_limited (n : Nat) (cause : String) : c.write (.limited n cause) =
    if c.snapshot.length ≤ n then
      .ok { accepted := c.snapshot, room := some (n - c.snapshot.length, cause) }
    else .error (.snapshot (.unwritable (Snapshot.Fault.source (.failed cause)).text)) := by
  rw [write, Snapshot.Codec.write, Sink.write_limited rfl, snapshot]
  split <;> rfl

theorem write_limited_iff {n : Nat} {cause : String} :
    (∃ sink, c.write (.limited n cause) = .ok sink ∧ sink.accepted = c.snapshot) ↔
      c.snapshot.length ≤ n := by
  rw [write_limited]
  split <;> simp [*]

end Cube

end TripleCube
