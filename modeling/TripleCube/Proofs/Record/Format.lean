import Mathlib
import TripleCube.Proofs.Record.Decoding
import TripleCube.Proofs.Text.Bytes
import TripleCube.Record.Format

/-! What the text of a record tells. The key ends at the first arrow, the index and the word of
the kind at the first space behind which they stand, so nothing in the payload, which is quoted
and comes last, is taken for a separator. Only of a compressed payload just the size is shown. -/
namespace TripleCube

/-- What stands before the first of the marks, and what stands behind it. -/
theorem append_mark_inj {α : Type} {mark : α} {before before' after after' : List α}
    (free : mark ∉ before) (free' : mark ∉ before') :
    before ++ mark :: after = before' ++ mark :: after' ↔ before = before' ∧ after = after' := by
  constructor
  · intro same
    rcases List.append_eq_append_iff.mp same with ⟨between, rfl, rest⟩ | ⟨between, rfl, rest⟩
    all_goals
      cases between with
      | nil => simp_all
      | cons first between => simp_all
  · rintro ⟨rfl, rfl⟩
    rfl

/-- Decimal text has digits and a sign. -/
theorem notMem_decimal {c : Char} (sign : c ≠ '-') (digit : ¬ c.isDigit) (n : Int) :
    c ∉ n.repr.toList := by
  have natural : ∀ m : Nat, c ∉ m.repr.toList := fun m listed => by
    rw [Nat.toList_repr] at listed
    exact digit (Nat.isDigit_of_mem_toDigits (by decide) (by decide) listed)
  rw [Int.repr_eq_if]
  split
  · exact natural _
  · rw [String.toList_append, List.mem_append]
    rintro (marked | listed)
    · exact sign (List.mem_singleton.mp marked)
    · exact natural _ listed

namespace EntryFormat

theorem toList_entry (format : EntryFormat) (key value : List UInt8) :
    (format.entry key value).toList =
      ((format.key key).toList ++ [' ']) ++ '→' :: ' ' :: (format.value value).toList := by
  simp [entry, entry?, toString]

/-- The index that the first half of a key stands for. -/
def keyIndex (key : List UInt8) : Int32 := (UInt32.ofNat (Bytes.ofBig (key.take 4))).toInt32

theorem toList_recordKey {key : List UInt8} (length : key.length = 8) :
    (recordKey key).toList = '#' :: ((keyIndex key).toInt.repr.toList ++
      ' ' :: Text.hexDigits 8 (Bytes.ofBig (key.drop 4))) := by
  have shown : recordKey key =
      "#" ++ (keyIndex key).toInt.repr ++ " " ++ Text.hex 8 (Bytes.ofBig (key.drop 4)) := by
    rw [recordKey, if_pos length]
    rfl
  rw [shown]
  simp only [String.toList_append, Text.hex, String.toList_ofList]
  simp

theorem take_four_eq {key : List UInt8} (length : key.length = 8) :
    key.take 4 = Bytes.big 4 (keyIndex key).toUInt32.toNat := by
  rw [keyIndex, UInt32.toUInt32_toInt32]
  exact Literal.take_eq_big (by omega)

theorem recordKey_inj_of_length {key key' : List UInt8} (length : key.length = 8)
    (length' : key'.length = 8) (same : recordKey key = recordKey key') : key = key' := by
  have chars := congrArg String.toList same
  rw [toList_recordKey length, toList_recordKey length'] at chars
  have free : ∀ n : Int, ' ' ∉ n.repr.toList := notMem_decimal (by decide) (by decide)
  obtain ⟨index, hash⟩ := (append_mark_inj (free _) (free _)).mp (List.cons.inj chars).2
  have indices : keyIndex key = keyIndex key' :=
    Int32.toInt_inj.mp (Int.repr_inj.mp (String.toList_inj.mp index))
  have small : ∀ word : List UInt8, word.length = 8 → Bytes.ofBig (word.drop 4) < 16 ^ 8 :=
    fun word long => by
      have bound := Bytes.ofBig_lt (word.drop 4)
      rw [List.length_drop, long] at bound
      exact bound
  have hashes := Bytes.ofBig_inj (by rw [List.length_drop, List.length_drop, length, length'])
    (Text.hexDigits_inj (small key length) (small key' length') hash)
  rw [← List.take_append_drop 4 key, ← List.take_append_drop 4 key', take_four_eq length,
    take_four_eq length', indices, hashes]

theorem recordKey_ne_quoted {key : List UInt8} (length : key.length = 8) (bytes : List UInt8) :
    recordKey key ≠ Text.quotedBytes bytes := by
  intro same
  have chars := congrArg String.toList same
  rw [toList_recordKey length, Text.toList_quotedBytes] at chars
  exact absurd (List.cons.inj chars).1 (by decide)

theorem recordKey_inj {key key' : List UInt8} : recordKey key = recordKey key' ↔ key = key' := by
  refine ⟨fun same => ?_, congrArg recordKey⟩
  have quoted : ∀ {bytes : List UInt8}, bytes.length ≠ 8 →
      recordKey bytes = Text.quotedBytes bytes := fun length => if_neg length
  by_cases length : key.length = 8 <;> by_cases length' : key'.length = 8
  · exact recordKey_inj_of_length length length' same
  · exact absurd (same.trans (quoted length')) (recordKey_ne_quoted length key')
  · exact absurd (same.symm.trans (quoted length)) (recordKey_ne_quoted length' key)
  · rwa [quoted length, quoted length', Text.quotedBytes_inj] at same

theorem arrow_notMem_recordKey (key : List UInt8) : '→' ∉ (recordKey key).toList := by
  by_cases length : key.length = 8
  · rw [toList_recordKey length, List.mem_cons, List.mem_append, List.mem_cons]
    rintro (mark | index | space | hash)
    · exact absurd mark (by decide)
    · exact notMem_decimal (by decide) (by decide) _ index
    · exact absurd space (by decide)
    · exact Text.notMem_hexDigits (by decide) hash
  · rw [recordKey, if_neg length]
    intro listed
    exact absurd (Text.lt_of_mem_quotedBytes listed) (by decide)

/-- The word for a kind. -/
def kindWord : RecordKind → String
  | .any => "any"
  | .blank => "blank"
  | .literal | .compressedLiteral => "literal"
  | .uri => "uri"
  | .var => "variable"

/-- What the text of a value begins with. -/
def tagWord (tag : UInt8) : String :=
  match RecordKind.ofTag tag with
  | .ok kind => kindWord kind
  | .error _ => "0x" ++ Text.hex 2 tag.toNat

/-- A value whose payload is shown, which that of a compressed one is not. -/
def Legible (value : List UInt8) : Prop := value.head? ≠ some RecordKind.compressedLiteral.tag

instance (value : List UInt8) : Decidable (Legible value) := inferInstanceAs (Decidable (_ ≠ _))

theorem legible_cons {tag : UInt8} {payload : List UInt8} :
    Legible (tag :: payload) ↔ tag ≠ RecordKind.compressedLiteral.tag := by
  simp [Legible]

theorem toList_recordValue {tag : UInt8} (known : tag ≠ RecordKind.compressedLiteral.tag)
    (payload : List UInt8) : (recordValue (tag :: payload)).toList =
      (tagWord tag).toList ++ ' ' :: (Text.quotedBytes payload).toList := by
  rw [recordValue, tagWord]
  cases read : RecordKind.ofTag tag with
  | error fault => simp [toString]
  | ok kind =>
    cases kind with
    | compressedLiteral => exact absurd (RecordKind.tag_eq_of_ofTag read).symm known
    | _ => simp [toString, kindWord]

theorem space_notMem_tagWord (tag : UInt8) : ' ' ∉ (tagWord tag).toList := by
  have kinds : ∀ kind, ' ' ∉ (kindWord kind).toList := fun kind => by cases kind <;> decide
  rw [tagWord]
  cases RecordKind.ofTag tag with
  | ok kind => exact kinds kind
  | error fault =>
    simp only [String.toList_append, Text.hex, String.toList_ofList, List.mem_append]
    rintro (mark | digits)
    · exact absurd mark (by decide)
    · exact Text.notMem_hexDigits (by decide) digits

theorem kindWord_ne_hex (kind : RecordKind) (digits : String) : kindWord kind ≠ "0x" ++ digits := by
  intro same
  have chars := congrArg String.toList same
  rw [String.toList_append] at chars
  cases kind <;> simp [kindWord] at chars

theorem tagWord_inj {tag tag' : UInt8} (known : tag ≠ RecordKind.compressedLiteral.tag)
    (known' : tag' ≠ RecordKind.compressedLiteral.tag) (same : tagWord tag = tagWord tag') :
    tag = tag' := by
  rw [tagWord, tagWord] at same
  cases read : RecordKind.ofTag tag with
  | ok kind =>
    cases read' : RecordKind.ofTag tag' with
    | ok kind' =>
      rw [read, read'] at same
      rw [← RecordKind.tag_eq_of_ofTag read] at known ⊢
      rw [← RecordKind.tag_eq_of_ofTag read'] at known' ⊢
      cases kind <;> cases kind' <;> simp_all [kindWord]
    | error fault' =>
      rw [read, read'] at same
      exact absurd same (kindWord_ne_hex kind _)
  | error fault =>
    cases read' : RecordKind.ofTag tag' with
    | ok kind' =>
      rw [read, read'] at same
      exact absurd same.symm (kindWord_ne_hex kind' _)
    | error fault' =>
      rw [read, read'] at same
      have chars := congrArg String.toList same
      simp only [String.toList_append, List.append_cancel_left_eq, Text.hex,
        String.toList_ofList] at chars
      exact UInt8.toNat_inj.mp (Text.hexDigits_inj tag.toNat_lt tag'.toNat_lt chars)

theorem recordValue_inj {value value' : List UInt8} (legible : Legible value)
    (legible' : Legible value') : recordValue value = recordValue value' ↔ value = value' := by
  refine ⟨fun same => ?_, congrArg recordValue⟩
  have chars := congrArg String.toList same
  have empty : ∀ {tag : UInt8} {payload : List UInt8}, Legible (tag :: payload) →
      (recordValue []).toList ≠ (recordValue (tag :: payload)).toList := fun shown equal => by
    -- The text of a missing value has no space in it.
    have spaced : ' ' ∈ (recordValue []).toList := by
      rw [equal, toList_recordValue (legible_cons.mp shown)]
      simp
    exact absurd spaced (by decide)
  cases value with
  | nil =>
    cases value' with
    | nil => rfl
    | cons tag' payload' => exact absurd chars (empty legible')
  | cons tag payload =>
    cases value' with
    | nil => exact absurd chars.symm (empty legible)
    | cons tag' payload' =>
      have known := legible_cons.mp legible
      have known' := legible_cons.mp legible'
      rw [toList_recordValue known, toList_recordValue known',
        append_mark_inj (space_notMem_tagWord tag) (space_notMem_tagWord tag')] at chars
      rw [tagWord_inj known known' (String.toList_inj.mp chars.1),
        Text.quotedBytes_inj.mp (String.toList_inj.mp chars.2)]

/-- The arrow behind a key ends it, so both halves of an entry can be told apart. -/
theorem record_entry_eq_iff {key key' value value' : List UInt8} :
    record.entry key value = record.entry key' value' ↔
      key = key' ∧ recordValue value = recordValue value' := by
  have free : ∀ bytes, '→' ∉ (record.key bytes).toList ++ [' '] := fun bytes listed => by
    rcases List.mem_append.mp listed with inside | space
    · exact arrow_notMem_recordKey bytes inside
    · exact absurd space (by decide)
  rw [← String.toList_inj, toList_entry, toList_entry, append_mark_inj (free key) (free key'),
    List.append_cancel_right_eq, List.cons_inj_right, String.toList_inj, String.toList_inj]
  exact and_congr_left' recordKey_inj

end EntryFormat

namespace NodeRecord

theorem legible_contentKey {r : NodeRecord} (kind : r.kind ≠ .compressedLiteral) :
    EntryFormat.Legible r.contentKey :=
  EntryFormat.legible_cons.mpr fun same => kind (RecordKind.tag_inj.mp same)

/-- The text of a record stands for its bytes: quoted bytes, escape by escape, for what they
were quoted from, the two halves of an entry for its key and value, and the text of a record
whose payload is shown for all that is stored. -/
theorem describe_faithful :
    (∀ first second : List UInt8,
      Text.quotedBytes first = Text.quotedBytes second ↔ first = second) ∧
    (∀ (a b : UInt8) (rest rest' : List Char),
      Text.escapedByte a ++ rest = Text.escapedByte b ++ rest' ↔ a = b ∧ rest = rest') ∧
    (∀ key key' value value' : List UInt8,
      EntryFormat.Legible value → EntryFormat.Legible value' →
      (EntryFormat.record.entry key value = EntryFormat.record.entry key' value' ↔
        key = key' ∧ value = value')) ∧
    ∀ r s : NodeRecord, r.kind ≠ .compressedLiteral → s.kind ≠ .compressedLiteral →
      (r.describe = s.describe ↔ r.toBytes = s.toBytes) := by
  have entries : ∀ key key' value value' : List UInt8,
      EntryFormat.Legible value → EntryFormat.Legible value' →
      (EntryFormat.record.entry key value = EntryFormat.record.entry key' value' ↔
        key = key' ∧ value = value') := fun key key' value value' legible legible' => by
    rw [EntryFormat.record_entry_eq_iff, EntryFormat.recordValue_inj legible legible']
  refine ⟨fun _ _ => Text.quotedBytes_inj, fun _ _ _ _ => Text.escapedByte_append_inj, entries, ?_⟩
  intro r s kind kind'
  have halves : r.toBytes = s.toBytes ↔ r.head = s.head ∧ r.contentKey = s.contentKey := by
    refine ⟨fun same => List.append_inj same (r.length_head.trans s.length_head.symm), ?_⟩
    rintro ⟨heads, contents⟩
    rw [toBytes, toBytes, heads, contents]
  rw [halves]
  exact entries _ _ _ _ (legible_contentKey kind) (legible_contentKey kind')

/-- A line break is told from a backslash before an `n`, and a quote from a backslash. -/
theorem describe_faithful_lookalikes :
    (⟨5, .uri, [0x0A]⟩ : NodeRecord).describe ≠ (⟨5, .uri, [0x5C, 0x6E]⟩ : NodeRecord).describe ∧
    EntryFormat.record.entry [] [0x09, 0x22] ≠ EntryFormat.record.entry [] [0x09, 0x5C] := by
  obtain ⟨-, -, entries, records⟩ := describe_faithful
  constructor
  · rw [ne_eq, records _ _ (by decide) (by decide)]
    decide +kernel
  · rw [ne_eq, entries _ _ _ _ (by decide) (by decide)]
    decide

end NodeRecord

end TripleCube
