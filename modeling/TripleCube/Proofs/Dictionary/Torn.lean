import TripleCube.Proofs.Dictionary.Reload

/-! Dictionary streams that are torn off. A stream is written field by field: the number of the
records and, for each record, its length and its bytes. Of a sink that is full, and of a stream
that ends too early, it is said in which field this happens. -/
namespace TripleCube.Dictionary

/-- A part of a stream that is written at once. -/
inductive Field
  | count (records : Nat)
  | length (bytes : Nat)
  | record (bytes : List UInt8)

namespace Field

/-- The name of a field in errors. -/
def name : Field → String
  | .count _ => "count"
  | .length _ => "record_len"
  | .record _ => "record"

def bytes : Field → List UInt8
  | .count number | .length number => Bytes.big 4 number
  | .record bytes => bytes

/-- What is said where a stream ends behind some bytes of a field. -/
def torn (offset : Nat) : Field → Error
  | .count _ => .decode "count" Source.Fault.ended.text
  | .length _ => .decode "record_len" Source.Fault.ended.text
  | .record bytes => .invalidRecord (.cutShort (UInt32.ofNat bytes.length) offset)

/-- Whether the byte at a position of some fields lies in a field, behind `offset` bytes of it. -/
inductive Holds (field : Field) (offset : Nat) : List Field → (position : Nat) → Prop
  | here (rest : List Field) (inside : offset < field.bytes.length) :
    Holds field offset (field :: rest) offset
  | behind (other : Field) {rest : List Field} {position : Nat}
    (holds : Holds field offset rest position) :
    Holds field offset (other :: rest) (other.bytes.length + position)

/-- Each byte lies in a field. -/
theorem exists_holds {fields : List Field} {position : Nat}
    (inside : position < (fields.flatMap bytes).length) :
    ∃ field offset, Holds field offset fields position := by
  induction fields generalizing position with
  | nil => simp at inside
  | cons first rest ih =>
    by_cases within : position < first.bytes.length
    · exact ⟨first, position, .here rest within⟩
    · obtain ⟨later, rfl⟩ := Nat.exists_eq_add_of_le (Nat.not_lt.mp within)
      rw [List.flatMap_cons, List.length_append] at inside
      obtain ⟨field, offset, holds⟩ := ih (Nat.lt_of_add_lt_add_left inside)
      exact ⟨field, offset, .behind first holds⟩

def write (sink : Sink) (field : Field) : Except Error Sink :=
  writeField field.name field.bytes sink

theorem write_limited {sink : Sink} {n : Nat} {cause : String}
    (room : sink.room = some (n, cause)) (field : Field) :
    field.write sink = if field.bytes.length ≤ n then
        .ok { sink with
          accepted := sink.accepted ++ field.bytes, room := some (n - field.bytes.length, cause) }
      else .error (.encode field.name cause) := by
  rw [write, writeField, Sink.write_limited room]
  split <;> rfl

/-- A sink that is full at a byte fails in the field in which the byte lies. -/
theorem Holds.foldlM_write {field : Field} {offset n : Nat} {fields : List Field}
    (holds : Holds field offset fields n) {sink : Sink} {cause : String}
    (room : sink.room = some (n, cause)) :
    fields.foldlM write sink = .error (.encode field.name cause) := by
  induction holds generalizing sink with
  | here rest inside =>
    rw [List.foldlM_cons, write_limited room, if_neg (Nat.not_le.mpr inside)]
    rfl
  | behind other holds ih =>
    rw [List.foldlM_cons, write_limited room, if_pos (Nat.le_add_right _ _)]
    exact ih (by simp)

/-- A sink with room for all fields takes them. -/
theorem foldlM_write {fields : List Field} {sink : Sink} {n : Nat} {cause : String}
    (room : sink.room = some (n, cause)) (enough : (fields.flatMap bytes).length ≤ n) :
    ∃ left, fields.foldlM write sink = .ok { sink with
      accepted := sink.accepted ++ fields.flatMap bytes, room := some (left, cause) } := by
  induction fields generalizing sink n with
  | nil => exact ⟨n, by simp [← room, pure, Except.pure]⟩
  | cons first rest ih =>
    rw [List.flatMap_cons, List.length_append] at enough
    rw [List.foldlM_cons, write_limited room, if_pos (Nat.le_of_add_right_le enough)]
    let next : Sink := { sink with
      accepted := sink.accepted ++ first.bytes, room := some (n - first.bytes.length, cause) }
    have still : next.room = some (n - first.bytes.length, cause) := rfl
    obtain ⟨left, written⟩ := ih still (Nat.le_sub_of_add_le' enough)
    refine ⟨left, written.trans ?_⟩
    rw [List.flatMap_cons, List.append_assoc]

end Field

/-- The fields of a record. -/
def recordFields (r : NodeRecord) : List Field := [.length r.toBytes.length, .record r.toBytes]

/-- The fields of a stream. -/
def fields (records : List NodeRecord) : List Field :=
  .count records.length :: records.flatMap recordFields

variable {records : List NodeRecord}

theorem flatMap_recordFields (records : List NodeRecord) :
    (records.flatMap recordFields).flatMap Field.bytes = records.flatMap recordBytes := by
  simp only [List.flatMap_assoc, recordFields, List.flatMap_cons, List.flatMap_nil,
    List.append_nil, Field.bytes]
  rfl

theorem stream_eq (records : List NodeRecord) :
    stream records = (fields records).flatMap Field.bytes := by
  rw [fields, List.flatMap_cons, flatMap_recordFields]
  rfl

/-- Records that are not too long are written field by field. -/
theorem foldlM_writeRecord (fit : ∀ r ∈ records, Fits r) (sink : Sink) :
    records.foldlM writeRecord sink = (records.flatMap recordFields).foldlM Field.write sink := by
  induction records generalizing sink with
  | nil => rfl
  | cons r rest ih =>
    rw [List.forall_mem_cons] at fit
    have first : writeRecord sink r = (recordFields r).foldlM Field.write sink := by
      rw [writeRecord, if_pos (show r.toBytes.length < maxRecordLength from fit.1)]
      simp [recordFields, Field.write, Field.name, Field.bytes]
    rw [List.foldlM_cons, List.flatMap_cons, List.foldlM_append, first]
    exact bind_congr fun sink => ih fit.2 sink

section Writing

variable {d : Dictionary} (isOpen : d.closed = false) (fit : ∀ r ∈ d.records.toList, Fits r)
include isOpen fit

theorem write_eq (sink : Sink) :
    d.write sink = (fields d.records.toList).foldlM Field.write sink >>= fun sink => do
      sink.flush.mapError .io
      return sink := by
  rw [Dictionary.write, ensureOpen_of_open isOpen, fields, List.foldlM_cons, bind_assoc]
  simp only [← foldlM_writeRecord fit]
  rfl

theorem write_full {field : Field} {offset n : Nat}
    (holds : field.Holds offset (fields d.records.toList) n) (cause : String) :
    d.write (.limited n cause) = .error (.encode field.name cause) := by
  rw [write_eq isOpen fit, holds.foldlM_write rfl]
  rfl

/-- A sink takes a whole stream if and only if it has room for it. -/
theorem write_limited_iff {n : Nat} {cause : String} :
    (∃ sink, d.write (.limited n cause) = .ok sink ∧ sink.accepted = stream d.records.toList) ↔
      (stream d.records.toList).length ≤ n := by
  rw [stream_eq]
  constructor
  · rintro ⟨sink, taken, -⟩
    by_contra short
    obtain ⟨field, offset, holds⟩ := Field.exists_holds (Nat.not_le.mp short)
    cases taken.symm.trans (write_full isOpen fit holds cause)
  · intro enough
    obtain ⟨left, written⟩ := @Field.foldlM_write _ (.limited n cause) n cause rfl enough
    exact ⟨_, by rw [write_eq isOpen fit, written]; rfl, rfl⟩

end Writing

theorem readWord_torn (name : String) {number n : Nat} (short : n < (Bytes.big 4 number).length) :
    readWord name (.torn (Bytes.big 4 number) n) =
      .error (.decode name Source.Fault.ended.text) := by
  rw [readWord, Source.take_torn (Bytes.length_big 4 number) (by simpa using short)]
  rfl

theorem readWord_prepend (name : String) {number : Nat} (small : number < 2 ^ 32)
    (later : Source) :
    readWord name (later.prepend (Bytes.big 4 number)) = .ok (UInt32.ofNat number, later) :=
  readWord_eq_ok.mpr (by rw [UInt32.toNat_ofNat_of_lt' small])

/-- A record that ends too early is cut short by what is missing. -/
theorem readRecord_torn {raw : List UInt8} {n : Nat} (small : raw.length < 2 ^ 32)
    (short : n < raw.length) :
    readRecord ((Source.torn raw n).prepend (Bytes.big 4 raw.length)) =
      .error (Field.torn n (.record raw)) := by
  have length : (UInt32.ofNat raw.length).toNat = raw.length := UInt32.toNat_ofNat_of_lt' small
  have taken : (raw.take n).length = n := List.length_take_of_le (Nat.le_of_lt short)
  rw [readRecord, readWord_prepend _ small]
  simp only [bind, Except.bind, length, Source.takeUpTo_torn short, Except.mapError, taken,
    if_neg (Nat.ne_of_lt short), Field.torn]

/-- Records that end too early fail in the field in which they end. -/
theorem readRecords_torn {field : Field} {offset n : Nat} (fit : ∀ r ∈ records, Fits r)
    (holds : field.Holds offset (records.flatMap recordFields) n) :
    readRecords records.length (.torn (records.flatMap recordBytes) n) =
      .error (field.torn offset) := by
  induction records generalizing n with
  | nil => cases holds
  | cons r rest ih =>
    obtain ⟨small, others⟩ := List.forall_mem_cons.mp fit
    rw [List.flatMap_cons, recordFields, List.cons_append, List.singleton_append] at holds
    rw [List.length_cons, readRecords, List.flatMap_cons, recordBytes, List.append_assoc]
    -- The stream ends in the length of the first record, in its bytes or behind them.
    cases holds with
    | here _ inside =>
      rw [Field.bytes] at inside
      rw [Source.torn_append_of_le (Nat.le_of_lt inside), readRecord, readWord_torn _ inside]
      rfl
    | behind _ holds =>
      rw [Field.bytes, Source.torn_append_add]
      cases holds with
      | here _ inside =>
        rw [Field.bytes] at inside
        rw [Source.torn_append_of_le (Nat.le_of_lt inside), readRecord_torn small inside]
        rfl
      | behind _ holds =>
        have first : ∀ later : Source,
            readRecord ((later.prepend r.toBytes).prepend (Bytes.big 4 r.toBytes.length)) =
              .ok (r, later) := fun later =>
          readRecord_eq_ok.mpr ⟨_, small, NodeRecord.ofBytes_toBytes r, by simp [frame]⟩
        rw [Field.bytes, Source.torn_append_add, first]
        simp only [bind, Except.bind, ih others holds]

/-- A stream that ends too early is refused with the field in which it ends. -/
theorem read_torn [Compression] {field : Field} {offset n : Nat} (count : records.length < 2 ^ 32)
    (fit : ∀ r ∈ records, Fits r) (holds : field.Holds offset (fields records) n)
    (config : Config) : read (.torn (stream records) n) config = .error (field.torn offset) := by
  rw [stream, read]
  cases holds with
  | here _ inside =>
    rw [Field.bytes] at inside
    rw [Source.torn_append_of_le (Nat.le_of_lt inside), readWord_torn _ inside]
    rfl
  | behind _ holds =>
    have length : (UInt32.ofNat records.length).toNat = records.length :=
      UInt32.toNat_ofNat_of_lt' count
    rw [Field.bytes, Source.torn_append_add, readWord_prepend _ count]
    simp only [bind, Except.bind, length, readRecords_torn fit holds]

end TripleCube.Dictionary
