import TripleCube.Literal.Packed
import TripleCube.Proofs.Bytes.Digits
import TripleCube.Proofs.SignedWord

/-! Fields in packed form. Any bytes begin with the packed form of one field, or with something
that is no field: a length that is cut off or cannot be one, or a text that ends early or is
none. Unpacking reads the one and tells the other. -/
namespace TripleCube.Literal

/-- A field in packed form. -/
def fieldBytes : Option String → List UInt8
  | none => Bytes.big 4 absent.toUInt32.toNat
  | some text => Bytes.big 4 (Text.Utf8.encode text).length ++ Text.Utf8.encode text

/-- Whether the length of a field has a length word. -/
def Fits : Option String → Prop
  | none => True
  | some text => (Text.Utf8.encode text).length < lengthLimit

instance (field : Option String) : Decidable (Fits field) :=
  match field with
  | none => inferInstanceAs (Decidable True)
  | some text => inferInstanceAs (Decidable ((Text.Utf8.encode text).length < lengthLimit))

/-- What is said of a field that does not fit. -/
def refusal? (name : String) (field : Option String) : Option Error :=
  match field with
  | none => none
  | some text =>
    if Fits (some text) then none
    else some (.invalidArgument (.fieldTooLong name (Text.Utf8.encode text).length))

theorem packField_eq (name : String) (field : Option String) :
    packField name field = match refusal? name field with
      | none => .ok (fieldBytes field)
      | some e => .error e := by
  cases field with
  | none => rfl
  | some text =>
    rw [packField, refusal?]
    by_cases fits : Fits (some text)
    · rw [if_pos fits]
      exact if_pos fits
    · rw [if_neg fits]
      exact if_neg fits

theorem refusal?_eq_none_iff {name : String} {field : Option String} :
    refusal? name field = none ↔ Fits field := by
  cases field with
  | none => exact ⟨fun _ => trivial, fun _ => rfl⟩
  | some text => simp [refusal?]

/-- A text of as many bytes. -/
def letters (count : Nat) : String := String.ofList (List.replicate count 'a')

theorem length_encode_letters (count : Nat) :
    (Text.Utf8.encode (letters count)).length = count := by
  have size : (List.replicate count 'a').utf8Encode.size = count := by
    induction count with
    | zero => rfl
    | succ count ih =>
      have one : ['a'].utf8Encode.size = 1 := by decide
      rw [List.replicate_succ, List.utf8Encode_cons, ByteArray.size_append, ih]
      omega
  simpa [Text.Utf8.encode, letters] using size

/-- The length word at the front of some bytes. -/
def lengthWord (bytes : List UInt8) : UInt32 := UInt32.ofNat (Bytes.ofBig (bytes.take 4))

theorem lengthWord_append (n : Nat) (rest : List UInt8) :
    lengthWord (Bytes.big 4 n ++ rest) = UInt32.ofNat n := by
  have width : (Bytes.big 4 n).length = 4 := Bytes.length_big 4 n
  rw [lengthWord, List.take_left' width, Bytes.ofBig_big]
  apply UInt32.toNat_inj.mp
  simp

theorem take_eq_big {bytes : List UInt8} (long : 4 ≤ bytes.length) :
    bytes.take 4 = Bytes.big 4 (lengthWord bytes).toNat := by
  have digits := Bytes.big_ofBig (bytes.take 4)
  have value := Bytes.ofBig_big 4 (Bytes.ofBig (bytes.take 4))
  rw [List.length_take_of_le long] at digits
  rw [digits] at value
  have small : Bytes.ofBig (bytes.take 4) < UInt32.size := by
    rw [value]
    exact Nat.mod_lt _ (by decide)
  rw [lengthWord, UInt32.toNat_ofNat_of_lt' small, digits]

theorem toNat_ofNat_of_fits {n : Nat} (fits : n < lengthLimit) :
    (UInt32.ofNat n).toNat = n := by
  simp only [lengthLimit] at fits
  rw [UInt32.toNat_ofNat']
  exact Nat.mod_eq_of_lt (by omega)

theorem ne_absent {length : Int32} (nonneg : 0 ≤ length) : length ≠ absent := by
  rintro rfl
  revert nonneg
  decide

/-- What can be wrong with a field at the front of some bytes. -/
inductive FieldFault (name : String) : List UInt8 → Error → Prop
  | noLength {bytes : List UInt8} (short : bytes.length < 4) :
    FieldFault name bytes (.decode name Source.Fault.ended.text)
  | negative {length : Int32} (below : length < absent) (rest : List UInt8) :
    FieldFault name (Bytes.big 4 length.toUInt32.toNat ++ rest)
      (.invalidRecord (.format (.fieldLength name length)))
  | cutShort {length : Nat} {rest : List UInt8} (fits : length < lengthLimit)
    (short : rest.length < length) :
    FieldFault name (Bytes.big 4 length ++ rest) (.invalidRecord .truncated)
  | notText {bytes : List UInt8} (fits : bytes.length < lengthLimit)
    (noText : ∀ text, Text.Utf8.encode text ≠ bytes) (rest : List UInt8) :
    FieldFault name (Bytes.big 4 bytes.length ++ (bytes ++ rest)) (.invalidRecord .notUtf8)

variable {name : String} {bytes rest : List UInt8} {e : Error}

/-- Unpacking a field whose length word is known. -/
theorem unpackField_word (name : String) (word : UInt32) (rest : List UInt8) :
    unpackField name (Bytes.big 4 word.toNat ++ rest) =
      if word.toInt32 = absent then .ok (none, rest)
      else if word.toInt32 < 0 then
        .error (.invalidRecord (.format (.fieldLength name word.toInt32)))
      else if rest.length < word.toInt32.toInt.toNat then .error (.invalidRecord .truncated)
      else match Text.Utf8.decode? (rest.take word.toInt32.toInt.toNat) with
        | none => .error (.invalidRecord .notUtf8)
        | some text => .ok (some text, rest.drop word.toInt32.toInt.toNat) := by
  have long : ¬ (Bytes.big 4 word.toNat ++ rest).length < 4 := by simp
  have behind : (Bytes.big 4 word.toNat ++ rest).drop 4 = rest :=
    List.drop_left' (Bytes.length_big 4 _)
  have read : lengthWord (Bytes.big 4 word.toNat ++ rest) = word := by
    rw [lengthWord_append, UInt32.ofNat_toNat]
  have unpacked := unpackField.eq_def name (Bytes.big 4 word.toNat ++ rest)
  rw [if_neg long, ← lengthWord, read, behind] at unpacked
  exact unpacked

/-- Unpacking a field whose length can be one. -/
theorem unpackField_length {length : Nat} (fits : length < lengthLimit) :
    unpackField name (Bytes.big 4 length ++ rest) =
      if rest.length < length then .error (.invalidRecord .truncated)
      else match Text.Utf8.decode? (rest.take length) with
        | none => .error (.invalidRecord .notUtf8)
        | some text => .ok (some text, rest.drop length) := by
  have word := toNat_ofNat_of_fits fits
  have below : (UInt32.ofNat length).toNat < 2 ^ 31 := by
    rw [word]
    exact fits
  have nonneg := toInt32_nonneg below
  have read := unpackField_word name (UInt32.ofNat length) rest
  rw [if_neg (ne_absent nonneg), if_neg (not_lt_zero nonneg), toInt_toInt32 below, word,
    Int.toNat_natCast] at read
  exact read

/-- A field is unpacked from its packed form. -/
theorem unpackField_fieldBytes (name : String) {field : Option String} (fits : Fits field)
    (rest : List UInt8) : unpackField name (fieldBytes field ++ rest) = .ok (field, rest) := by
  cases field with
  | none =>
    have isAbsent : absent.toUInt32.toInt32 = absent := by decide
    rw [fieldBytes, unpackField_word, if_pos isAbsent]
  | some text =>
    have enough :
        ¬ (Text.Utf8.encode text ++ rest).length < (Text.Utf8.encode text).length := by simp
    rw [fieldBytes, List.append_assoc, unpackField_length fits, if_neg enough, List.take_left,
      List.drop_left, Text.Utf8.decode?_encode]

theorem decode?_eq_none (noText : ∀ text, Text.Utf8.encode text ≠ bytes) :
    Text.Utf8.decode? bytes = none := by
  rw [Option.eq_none_iff_forall_not_mem]
  intro text decoded
  exact noText text (Text.Utf8.eq_encode_of_decode? decoded).symm

theorem FieldFault.unpackField (fault : FieldFault name bytes e) :
    unpackField name bytes = .error e := by
  cases fault with
  | noLength short => rw [Literal.unpackField, if_pos short]
  | @negative length below rest =>
    have negative : length < 0 := Int32.lt_trans below (by decide)
    have word := unpackField_word name length.toUInt32 rest
    rw [Int32.toInt32_toUInt32, if_neg (Int32.ne_of_lt below), if_pos negative] at word
    exact word
  | cutShort fits short => rw [unpackField_length fits, if_pos short]
  | @notText bytes fits noText rest =>
    have enough : ¬ (bytes ++ rest).length < bytes.length := by simp
    rw [unpackField_length fits, if_neg enough, List.take_left, decode?_eq_none noText]

/-- The lengths that neither are lengths nor mark an absent field. -/
theorem lt_absent {length : Int32} (negative : length < 0) (marks : length ≠ absent) :
    length < absent := by
  rw [Int32.lt_iff_toInt_lt] at negative ⊢
  rw [Ne, ← Int32.toInt_inj] at marks
  have zero : (0 : Int32).toInt = 0 := by decide
  have minusOne : absent.toInt = -1 := by decide
  omega

/-- Behind a length that can be one there is a text as long, or something is wrong. -/
theorem text_or_fault (name : String) {length : Nat} (fits : length < lengthLimit)
    (rest : List UInt8) :
    (∃ text rest', Fits (some text) ∧
      Bytes.big 4 length ++ rest = fieldBytes (some text) ++ rest') ∨
      ∃ e, FieldFault name (Bytes.big 4 length ++ rest) e := by
  by_cases short : rest.length < length
  · exact .inr ⟨_, .cutShort fits short⟩
  obtain ⟨front, behind, rfl, rfl⟩ :
      ∃ front behind, rest = front ++ behind ∧ length = front.length :=
    ⟨rest.take length, rest.drop length, (List.take_append_drop length rest).symm,
      (List.length_take_of_le (Nat.not_lt.mp short)).symm⟩
  by_cases isText : ∃ text, Text.Utf8.encode text = front
  · obtain ⟨text, rfl⟩ := isText
    exact .inl ⟨text, behind, fits, by rw [fieldBytes, List.append_assoc]⟩
  · exact .inr ⟨_, .notText fits (not_exists.mp isText) behind⟩

/-- Any bytes begin with the packed form of a field or have something wrong there. -/
theorem field_or_fault (name : String) (bytes : List UInt8) :
    (∃ field rest, Fits field ∧ bytes = fieldBytes field ++ rest) ∨
      ∃ e, FieldFault name bytes e := by
  by_cases short : bytes.length < 4
  · exact .inr ⟨_, .noLength short⟩
  obtain ⟨word, rest, rfl⟩ : ∃ (word : UInt32) (rest : List UInt8),
      bytes = Bytes.big 4 word.toNat ++ rest :=
    ⟨lengthWord bytes, bytes.drop 4, by
      rw [← take_eq_big (Nat.not_lt.mp short), List.take_append_drop]⟩
  by_cases negative : word.toInt32 < 0
  · by_cases isAbsent : word.toInt32 = absent
    · have same : word = absent.toUInt32 := by rw [← isAbsent, UInt32.toUInt32_toInt32]
      exact .inl ⟨none, rest, trivial, by rw [same, fieldBytes]⟩
    · have fault : FieldFault name _ _ := .negative (lt_absent negative isAbsent) rest
      rw [UInt32.toUInt32_toInt32] at fault
      exact .inr ⟨_, fault⟩
  · have fits : word.toNat < lengthLimit := toNat_toUInt32_lt (Int32.not_lt.mp negative)
    exact (text_or_fault name fits rest).imp_left fun ⟨text, rest', fits', same⟩ =>
      ⟨some text, rest', fits', same⟩

end TripleCube.Literal
