import TripleCube.Proofs.Dictionary.Reachable
import TripleCube.Proofs.Dictionary.Torn
import TripleCube.Proofs.Snapshot.Torn

/-! No stream is taken for whole that is torn. A dictionary and a cube are written to a sink with
room for all of their bytes and to no other, and are read from all of their bytes and from no
fewer, whatever stands behind. -/
namespace TripleCube

/-- What is written of a dictionary is its fields, one behind the other. A sink that is full at a
byte, and a stream that ends before it, are refused with the field in which the byte lies, and all
the bytes are read as the same dictionary whatever follows, if the compression loses nothing. So it
is with a cube, which has to be of no more cells than a word can count. -/
theorem torn_streams_refused [Compression] :
    (∀ (d : Dictionary) (written : Sink), d.Reachable → d.closed = false →
      d.write .unlimited = .ok written →
        let fields := Dictionary.fields d.records.toList
        written.accepted = fields.flatMap Dictionary.Field.bytes ∧
        (∀ n cause, (∃ sink, d.write (.limited n cause) = .ok sink ∧
          sink.accepted = written.accepted) ↔ written.accepted.length ≤ n) ∧
        (∀ n < written.accepted.length, ∃ field offset,
          Dictionary.Field.Holds field offset fields n) ∧
        (∀ field offset n, Dictionary.Field.Holds field offset fields n →
          (∀ cause, d.write (.limited n cause) = .error (.encode field.name cause)) ∧
          ∀ config, Dictionary.read (.torn written.accepted n) config =
            .error (field.torn offset)) ∧
        (Compression.Lossless → ∀ config, ∃ loaded, ∀ source : Source,
          written.accepted <+: source.bytes → Dictionary.read source config = .ok loaded)) ∧
    ∀ (p : PageSize) (c : Cube p), c.Reachable → c.cardinality < 2 ^ 64 →
      c.write .unlimited = .ok { accepted := c.snapshot } ∧
      (∀ n cause, (∃ sink, c.write (.limited n cause) = .ok sink ∧ sink.accepted = c.snapshot) ↔
        c.snapshot.length ≤ n) ∧
      (∀ n < c.snapshot.length,
        (∀ cause, c.write (.limited n cause) =
          .error (.snapshot (.unwritable (Snapshot.Fault.source (.failed cause)).text))) ∧
        Cube.read (.torn c.snapshot n) = .error (.snapshot .truncated)) ∧
      ∀ source : Source, c.snapshot <+: source.bytes → Cube.read source = .ok ⟨p, c⟩ := by
  refine ⟨fun d written reached isOpen complete => ?_, fun p c reached small => ?_⟩
  · have valid := reached.valid
    obtain ⟨fit, whole⟩ | ⟨_, -, -, failed⟩ := Dictionary.write_outcome isOpen
    · obtain rfl := Except.ok.inj (whole.symm.trans complete)
      refine ⟨Dictionary.stream_eq _, fun n cause => Dictionary.write_limited_iff isOpen fit,
        fun n short => ?_, fun field offset n holds => ⟨Dictionary.write_full isOpen fit holds,
          Dictionary.read_torn valid.length_lt fit holds⟩, fun lossless config => ?_⟩
      · rw [Dictionary.stream_eq] at short
        exact Dictionary.Field.exists_holds short
      · have keyed := reached.keyed lossless
        obtain ⟨loaded, built, -⟩ := keyed.ofRecords config
        exact ⟨loaded, fun source begins => (keyed.read_of_begins fit begins config).trans built⟩
    · cases failed.symm.trans complete
  · obtain ⟨voxels, represents⟩ := reached.represents
    refine ⟨c.write_snapshot, fun n cause => Cube.write_limited_iff, fun n short =>
      ⟨fun cause => ?_, Cube.read_torn small represents.wf short⟩,
      fun source => Cube.read_of_begins reached small⟩
    rw [Cube.write_limited, if_neg (Nat.not_le.mpr short)]

/-- A dictionary of one record that is torn in its length and where its bytes begin, and read with
a byte behind it, and a cube of one cell that is torn in its counter. -/
theorem torn_streams_refused_alone :
    let r : NodeRecord := ⟨0, .uri, [97]⟩
    let d := ((Dictionary.empty {}).step (.resolve (.uri "a"))).2
    let c : Cube ⟨3, by decide⟩ := Cube.empty.apply (.set 1 2 3)
    Compression.Lossless ∧ d.write .unlimited = .ok { accepted := Dictionary.stream [r] } ∧
      d.write (.limited 5 "full") = .error (.encode "record_len" "full") ∧
      Dictionary.read (.torn (Dictionary.stream [r]) 5) {} =
        .error (.decode "record_len" "failed to fill whole buffer") ∧
      Dictionary.read (.torn (Dictionary.stream [r]) 8) {} =
        .error (.invalidRecord (.cutShort 10 0)) ∧
      (∃ loaded, Dictionary.read ⟨Dictionary.stream [r] ++ [0], none⟩ {} = .ok loaded) ∧
      Cube.read (.torn c.snapshot 6) = .error (.snapshot .truncated) := by
  intro r d c
  have written : d.write .unlimited = .ok { accepted := Dictionary.stream [r] } := by rfl
  obtain ⟨-, -, -, refused, whole⟩ := torn_streams_refused.1 d _ (.step (.empty {}) _) rfl written
  have inLength : Dictionary.Field.Holds (.length 10) 1 (Dictionary.fields [r]) 5 :=
    .behind (.count 1) (@Dictionary.Field.Holds.here (.length 10) 1 _ (by decide))
  have atRecord : Dictionary.Field.Holds (.record r.toBytes) 0 (Dictionary.fields [r]) 8 :=
    .behind (.count 1) (.behind (.length 10)
      (@Dictionary.Field.Holds.here (.record r.toBytes) 0 _ (by decide)))
  obtain ⟨-, -, torn, -⟩ := torn_streams_refused.2 _ c (.write _ .empty) (by decide)
  obtain ⟨loaded, reads⟩ := whole Gzip.lossless {}
  exact ⟨Gzip.lossless, written, (refused _ _ _ inLength).1 _, (refused _ _ _ inLength).2 _,
    (refused _ _ _ atRecord).2 _, ⟨loaded, reads _ (List.prefix_append _ _)⟩,
    (torn 6 (by decide)).2⟩

end TripleCube
