import TripleCube.Proofs.Literal.Field

/-! Packed literals are a second form of literals: packing writes one form of each literal, and
unpacking takes exactly these forms. Of all other bytes it tells the first thing that is wrong. -/
namespace TripleCube.Literal

/-- A literal in packed form. -/
def packedBytes (l : Literal) : List UInt8 :=
  fieldBytes (some l.lexical) ++ fieldBytes l.language ++ fieldBytes l.datatype

/-- Whether the lengths of all fields have length words. -/
def FitsPacked (l : Literal) : Prop := Fits (some l.lexical) ∧ Fits l.language ∧ Fits l.datatype

instance (l : Literal) : Decidable (FitsPacked l) := inferInstanceAs (Decidable (_ ∧ _ ∧ _))

/-- What is said of the first field that does not fit. -/
def packRefusal? (l : Literal) : Option Error :=
  (refusal? "lexical" (some l.lexical)).or
    ((refusal? "language" l.language).or (refusal? "datatype" l.datatype))

theorem packRefusal?_eq_none_iff {l : Literal} : packRefusal? l = none ↔ FitsPacked l := by
  simp [packRefusal?, refusal?_eq_none_iff, FitsPacked]

/-- A literal with a lexical form of as many bytes and nothing else. -/
def ofLetters (count : Nat) : Literal := ⟨letters count, none, none⟩

theorem packRefusal?_ofLetters {count : Nat} (long : lengthLimit ≤ count) :
    (ofLetters count).packRefusal? = some (.invalidArgument (.fieldTooLong "lexical" count)) := by
  simp [packRefusal?, refusal?, Fits, ofLetters, length_encode_letters, Nat.not_lt.mpr long]

/-- A literal with two fields of the greatest length, which go into no record together. -/
def bulky : Literal := ⟨letters (lengthLimit - 1), some (letters (lengthLimit - 1)), none⟩

theorem fitsPacked_bulky : bulky.FitsPacked := by
  simp only [FitsPacked, Fits, bulky, length_encode_letters]
  decide

theorem length_packedBytes_bulky : bulky.packedBytes.length = 4294967306 := by
  simp only [packedBytes, bulky, fieldBytes, List.length_append, Bytes.length_big,
    length_encode_letters]
  rfl

theorem pack_eq (l : Literal) :
    l.pack = match packRefusal? l with
      | none => .ok (packedBytes l)
      | some e => .error e := by
  rw [pack, packRefusal?, packField_eq, packField_eq, packField_eq]
  cases refusal? "lexical" (some l.lexical) with
  | some e => rfl
  | none =>
    cases refusal? "language" l.language with
    | some e => rfl
    | none => cases refusal? "datatype" l.datatype <;> rfl

variable {l : Literal} {bytes : List UInt8} {e : Error}

theorem pack_eq_ok_iff : l.pack = .ok bytes ↔ FitsPacked l ∧ bytes = packedBytes l := by
  rw [pack_eq, ← packRefusal?_eq_none_iff]
  cases packRefusal? l <;> simp [eq_comm]

/-- What can be wrong with a packed literal, each time behind fields that are right. -/
inductive Malformed : List UInt8 → Error → Prop
  | lexical {bytes : List UInt8} {e : Error} (fault : FieldFault "lexical" bytes e) :
    Malformed bytes e
  | noLexicalForm (rest : List UInt8) :
    Malformed (fieldBytes none ++ rest) (.invalidRecord (.format .noLexicalForm))
  | language {lexical : String} (fits : Fits (some lexical)) {bytes : List UInt8} {e : Error}
    (fault : FieldFault "language" bytes e) :
    Malformed (fieldBytes (some lexical) ++ bytes) e
  | datatype {lexical : String} (fits : Fits (some lexical)) {language : Option String}
    (fits' : Fits language) {bytes : List UInt8} {e : Error}
    (fault : FieldFault "datatype" bytes e) :
    Malformed (fieldBytes (some lexical) ++ (fieldBytes language ++ bytes)) e
  | trailing {l : Literal} (fits : FitsPacked l) {rest : List UInt8} (more : rest ≠ []) :
    Malformed (packedBytes l ++ rest) (.invalidRecord (.format (.trailing rest.length)))

/-- Unpacking the fields of a literal, whatever is behind them. -/
theorem unpack_packedBytes (fits : FitsPacked l) (rest : List UInt8) :
    unpack (packedBytes l ++ rest) = if rest.isEmpty then .ok l
      else .error (.invalidRecord (.format (.trailing rest.length))) := by
  obtain ⟨fitsLexical, fitsLanguage, fitsDatatype⟩ := fits
  rw [unpack, packedBytes, List.append_assoc, List.append_assoc,
    unpackField_fieldBytes "lexical" fitsLexical]
  simp only [bind, Except.bind, unpackField_fieldBytes "language" fitsLanguage,
    unpackField_fieldBytes "datatype" fitsDatatype]

theorem FitsPacked.unpack (fits : FitsPacked l) : unpack (packedBytes l) = .ok l := by
  simpa using unpack_packedBytes fits []

theorem Malformed.unpack (malformed : Malformed bytes e) : unpack bytes = .error e := by
  cases malformed with
  | lexical fault =>
    rw [Literal.unpack, fault.unpackField]
    rfl
  | noLexicalForm rest =>
    have fits : Fits none := trivial
    rw [Literal.unpack, unpackField_fieldBytes "lexical" fits]
    rfl
  | language fits fault =>
    rw [Literal.unpack, unpackField_fieldBytes "lexical" fits]
    simp only [bind, Except.bind, fault.unpackField]
  | datatype fits fits' fault =>
    rw [Literal.unpack, unpackField_fieldBytes "lexical" fits]
    simp only [bind, Except.bind, unpackField_fieldBytes "language" fits', fault.unpackField]
  | @trailing l fits rest more =>
    rw [unpack_packedBytes fits, if_neg (mt List.isEmpty_iff.mp more)]

/-- Any bytes are the packed form of a literal or have something wrong. -/
theorem packed_or_malformed (bytes : List UInt8) :
    (∃ l, FitsPacked l ∧ bytes = packedBytes l) ∨ ∃ e, Malformed bytes e := by
  rcases field_or_fault "lexical" bytes with ⟨lexical, bytes, fits, rfl⟩ | ⟨e, fault⟩
  case inr => exact .inr ⟨e, .lexical fault⟩
  cases lexical with
  | none => exact .inr ⟨_, .noLexicalForm bytes⟩
  | some lexical =>
    rcases field_or_fault "language" bytes with ⟨language, bytes, fits', rfl⟩ | ⟨e, fault⟩
    case inr => exact .inr ⟨e, .language fits fault⟩
    rcases field_or_fault "datatype" bytes with ⟨datatype, rest, fits'', rfl⟩ | ⟨e, fault⟩
    case inr => exact .inr ⟨e, .datatype fits fits' fault⟩
    have whole : FitsPacked ⟨lexical, language, datatype⟩ := ⟨fits, fits', fits''⟩
    rw [← List.append_assoc, ← List.append_assoc]
    by_cases more : rest = []
    · exact .inl ⟨_, whole, by rw [more, List.append_nil, packedBytes]⟩
    · exact .inr ⟨_, .trailing whole more⟩

/-- Literals are unpacked from their packed form and from nothing else. -/
theorem unpack_eq_ok_iff {l : Literal} {bytes : List UInt8} :
    unpack bytes = .ok l ↔ FitsPacked l ∧ bytes = packedBytes l := by
  constructor
  · intro unpacked
    rcases packed_or_malformed bytes with ⟨l', fits, rfl⟩ | ⟨e, malformed⟩
    · cases unpacked.symm.trans fits.unpack
      exact ⟨fits, rfl⟩
    · cases unpacked.symm.trans malformed.unpack
  · rintro ⟨fits, rfl⟩
    exact fits.unpack

theorem unpack_eq_error_iff : unpack bytes = .error e ↔ Malformed bytes e := by
  constructor
  · intro refused
    rcases packed_or_malformed bytes with ⟨l, fits, rfl⟩ | ⟨e', malformed⟩
    · cases fits.unpack.symm.trans refused
    · cases malformed.unpack.symm.trans refused
      exact malformed
  · exact Malformed.unpack

/-- Unpacking takes exactly what packing writes, each literal in the one form that is its own,
and for all other bytes tells what is wrong with them. -/
theorem unpack_inverts_pack (bytes : List UInt8) :
    (∀ l, unpack bytes = .ok l ↔ pack l = .ok bytes) ∧
    (∀ l, FitsPacked l ↔ ∃ packed, pack l = .ok packed) ∧
    (∀ l l', pack l = .ok bytes → pack l' = .ok bytes → l = l') ∧
    (∀ e, unpack bytes = .error e ↔ Malformed bytes e) ∧
    ((∃ e, unpack bytes = .error e) ↔ ∀ l, pack l ≠ .ok bytes) := by
  have inverts (l : Literal) : unpack bytes = .ok l ↔ pack l = .ok bytes :=
    unpack_eq_ok_iff.trans pack_eq_ok_iff.symm
  refine ⟨inverts, fun l => ?_, fun l l' packed packed' => ?_, fun e => unpack_eq_error_iff, ?_⟩
  · simp [pack_eq_ok_iff]
  · exact Except.ok.inj (((inverts l).mpr packed).symm.trans ((inverts l').mpr packed'))
  · constructor
    · rintro ⟨e, refused⟩ l packed
      cases refused.symm.trans ((inverts l).mpr packed)
    · intro unpacked
      cases outcome : unpack bytes with
      | ok l => exact absurd ((inverts l).mp outcome) (unpacked l)
      | error e => exact ⟨e, rfl⟩

end TripleCube.Literal
