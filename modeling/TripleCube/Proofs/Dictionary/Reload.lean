import TripleCube.Proofs.Dictionary.Acceptance
import TripleCube.Proofs.Record.Encoding

/-! Writing a dictionary and reading it back. The records come back as they were, so that the
dictionary that is read answers like the one that was written, whatever the two
configurations, and is written as the same bytes. Only a record that is too long for its length
to be written stands in the way, and then nothing is read since writing fails. -/
namespace TripleCube.Dictionary

/-- Whether the length of a record can be written. -/
def Fits (r : NodeRecord) : Prop := r.toBytes.length < maxRecordLength

instance (r : NodeRecord) : Decidable (Fits r) := inferInstanceAs (Decidable (_ < _))

theorem writeField_eq (name : String) (bytes : List UInt8) {sink : Sink}
    (unlimited : sink.room = none) :
    writeField name bytes sink = .ok { sink with accepted := sink.accepted ++ bytes } := by
  rw [writeField, Sink.write_eq unlimited]
  rfl

/-- A record is written to a sink without a limit unless it is too long. -/
theorem writeRecord_eq (r : NodeRecord) {sink : Sink} (unlimited : sink.room = none) :
    writeRecord sink r = if Fits r then .ok { sink with accepted := sink.accepted ++ recordBytes r }
      else .error (.invalidState (.recordTooLong r.index r.toBytes.length)) := by
  rw [writeRecord]
  by_cases fits : r.toBytes.length < maxRecordLength
  · rw [if_pos fits, if_pos (show Fits r from fits), writeField_eq _ _ unlimited, recordBytes,
      ← List.append_assoc]
    exact writeField_eq "record" r.toBytes unlimited
  · rw [if_neg fits, if_neg (show ¬ Fits r from fits)]

/-- Writing records to a sink without a limit fails only at one that is too long. -/
theorem writeRecords_outcome (records : List NodeRecord) (sink : Sink)
    (unlimited : sink.room = none) :
    ((∀ r ∈ records, Fits r) ∧ records.foldlM writeRecord sink =
      .ok { sink with accepted := sink.accepted ++ records.flatMap recordBytes }) ∨
    ∃ r ∈ records, ¬ Fits r ∧ records.foldlM writeRecord sink =
      .error (.invalidState (.recordTooLong r.index r.toBytes.length)) := by
  induction records generalizing sink with
  | nil => exact Or.inl ⟨by simp, by simp [pure, Except.pure]⟩
  | cons r rest ih =>
    rw [List.foldlM_cons, writeRecord_eq r unlimited]
    by_cases fits : Fits r
    · rw [if_pos fits]
      rcases ih { sink with accepted := sink.accepted ++ recordBytes r } unlimited with
        ⟨others, written⟩ | ⟨long, member, unfit, failed⟩
      · refine Or.inl ⟨List.forall_mem_cons.mpr ⟨fits, others⟩, written.trans ?_⟩
        rw [List.append_assoc, ← List.flatMap_cons]
      · exact Or.inr ⟨long, List.mem_cons_of_mem r member, unfit, failed⟩
    · rw [if_neg fits]
      exact Or.inr ⟨r, List.mem_cons_self, fits, rfl⟩

variable {d : Dictionary}

/-- An open dictionary is written as the stream of its records, unless one is too long. -/
theorem write_outcome (isOpen : d.closed = false) :
    ((∀ r ∈ d.records.toList, Fits r) ∧
      d.write .unlimited = .ok { accepted := stream d.records.toList }) ∨
    ∃ r ∈ d.records.toList, ¬ Fits r ∧
      d.write .unlimited = .error (.invalidState (.recordTooLong r.index r.toBytes.length)) := by
  let counted : Sink := { accepted := Bytes.big 4 d.records.toList.length }
  have started : writeField "count" (Bytes.big 4 d.count) .unlimited = .ok counted :=
    writeField_eq "count" (Bytes.big 4 d.count) rfl
  rw [write, ensureOpen_of_open isOpen]
  simp only [bind, Except.bind, started]
  rcases writeRecords_outcome d.records.toList counted rfl with
    ⟨fit, written⟩ | ⟨long, member, unfit, failed⟩
  · rw [written]
    exact Or.inl ⟨fit, rfl⟩
  · rw [failed]
    exact Or.inr ⟨long, member, unfit, rfl⟩

section

variable [Compression]

/-- Records of a valid dictionary are sorted already. -/
theorem Valid.sorted_eq (valid : d.Valid) : sorted d.records.toList = d.records.toList := by
  refine List.mergeSort_of_pairwise (List.pairwise_iff_getElem.mpr fun i j iIn jIn less => ?_)
  have first := valid.position (List.getElem?_eq_getElem iIn)
  have second := valid.position (List.getElem?_eq_getElem jIn)
  rw [decide_eq_true_iff, Int32.le_iff_toInt_le, first, second]
  omega

/-- Records of a valid dictionary are indexed again when they are read. -/
theorem Keyed.ofRecords (keyed : d.Keyed) (config : Config) :
    ∃ d', ofRecords d.records.toList config = .ok d' ∧ d'.config = config ∧
      d'.closed = false ∧ d'.records = d.records ∧ d'.Keyed := by
  obtain ⟨d', built⟩ := keyed.complete.ofRecords config
  have holds := holds_of_ofRecords built
  obtain ⟨byContent, -, same⟩ := ofRecords_eq_ok.mp built
  have records : d'.records = d.records :=
    (congrArg Dictionary.records same).trans (congrArg List.toArray keyed.toValid.sorted_eq)
  exact ⟨d', built, holds.configured, holds.isOpen, records, holds.keyed⟩

theorem Valid.length_lt (valid : d.Valid) : d.records.toList.length < 2 ^ 32 := by
  have size := valid.size
  rw [← Array.length_toList] at size
  exact Nat.lt_of_le_of_lt size (by decide)

/-- The stream of the records of a valid dictionary is read where it stands first. -/
theorem Keyed.read_of_begins (keyed : d.Keyed) (fit : ∀ r ∈ d.records.toList, Fits r)
    {source : Source} (begins : stream d.records.toList <+: source.bytes) (config : Config) :
    read source config = Dictionary.ofRecords d.records.toList config := by
  obtain ⟨d', built, -⟩ := keyed.ofRecords config
  rw [built]
  have framed : Framed source _ := framed_stream keyed.toValid.length_lt fit begins
  exact read_eq_ok.mpr ⟨_, _, framed, accepted_toBytes _, built⟩

theorem Keyed.read_stream (keyed : d.Keyed) (fit : ∀ r ∈ d.records.toList, Fits r)
    (config : Config) :
    read ⟨stream d.records.toList, none⟩ config = Dictionary.ofRecords d.records.toList config :=
  keyed.read_of_begins fit (List.prefix_refl _) config

/-- The same records store the same nodes. -/
theorem Represents.of_records {nodes : NodeList} {d' : Dictionary} (represents : d.Represents nodes)
    (keyed : d'.Keyed) (isOpen : d'.closed = false) (same : d'.records = d.records) :
    d'.Represents nodes where
  lossless := represents.lossless
  keyed := keyed
  isOpen := isOpen
  length := same ▸ represents.length
  stores := same ▸ represents.stores
  named := represents.named

/-- Two dictionaries that cannot be told apart, except by their configurations. -/
structure Alike (d d' : Dictionary) : Prop where
  closed : d.closed = d'.closed
  count : d.count = d'.count
  records : d.records = d'.records
  answers : ∀ calls, (Calls.run step calls d).1 = (Calls.run step calls d').1
  write : ∀ sink, d.write sink = d'.write sink

/-- Dictionaries with the same records are alike if they store the nodes of one list. -/
theorem Represents.alike {nodes : NodeList} {d' : Dictionary} (first : d.Represents nodes)
    (second : d'.Represents nodes) (same : d.records = d'.records) : d.Alike d' where
  closed := first.isOpen.trans second.isOpen.symm
  count := congrArg Array.size same
  records := same
  answers calls := by
    have simulates := fun (now : Dictionary) (nodes : NodeList) call
      (related : now.Represents nodes) => related.step call
    rw [(Calls.run_simulates Represents simulates calls first).1,
      (Calls.run_simulates Represents simulates calls second).1]
  write sink := by
    rw [Dictionary.write, Dictionary.write, ensureOpen_of_open first.isOpen,
      ensureOpen_of_open second.isOpen, Dictionary.count, Dictionary.count, same]

end

end TripleCube.Dictionary
