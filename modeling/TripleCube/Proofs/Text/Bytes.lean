import Mathlib.Algebra.Group.Nat.Defs
import Mathlib.Tactic.SplitIfs
import TripleCube.Text.Bytes

/-! Quoted bytes read back. Each escape is told from the others by its first characters, so
what follows it is left over, and none begins with a quote, so the first quote that is not
escaped ends the text. -/
namespace TripleCube.Text

/-- The number that a hexadecimal digit stands for. -/
def hexValue (digit : Char) : Nat :=
  if digit.isDigit then digit.toNat - '0'.toNat else digit.toNat - 'a'.toNat + 10

def ofHex (digits : List Char) : Nat := digits.foldl (fun n digit => 16 * n + hexValue digit) 0

theorem hexValue_hexDigit (n : Nat) : hexValue (hexDigit n) = n % 16 := by
  have digits : ∀ d : Fin 16, hexValue (Nat.digitChar d) = d := by decide
  exact digits ⟨n % 16, Nat.mod_lt n (by decide)⟩

theorem ofHex_hexDigits (width n : Nat) : ofHex (hexDigits width n) = n % 16 ^ width := by
  induction width generalizing n with
  | zero => simp [hexDigits, ofHex, Nat.mod_one]
  | succ width ih =>
    have last : ofHex (hexDigits (width + 1) n) =
        16 * ofHex (hexDigits width (n / 16)) + hexValue (hexDigit n) := by
      simp [hexDigits, ofHex]
    rw [last, ih, hexValue_hexDigit, Nat.pow_succ', Nat.mod_mul, Nat.add_comm]

theorem hexDigits_inj {width m n : Nat} (sm : m < 16 ^ width) (sn : n < 16 ^ width)
    (same : hexDigits width m = hexDigits width n) : m = n := by
  have read := congrArg ofHex same
  rwa [ofHex_hexDigits, ofHex_hexDigits, Nat.mod_eq_of_lt sm, Nat.mod_eq_of_lt sn] at read

theorem mem_hexDigits {width n : Nat} {c : Char} (listed : c ∈ hexDigits width n) :
    ∃ d : Fin 16, c = Nat.digitChar d := by
  induction width generalizing n with
  | zero => cases listed
  | succ width ih =>
    rcases List.mem_append.mp listed with before | last
    · exact ih before
    · exact ⟨⟨n % 16, Nat.mod_lt n (by decide)⟩, List.mem_singleton.mp last⟩

theorem notMem_hexDigits {width n : Nat} {c : Char} (strange : ∀ d : Fin 16, c ≠ Nat.digitChar d) :
    c ∉ hexDigits width n := by
  intro listed
  obtain ⟨d, same⟩ := mem_hexDigits listed
  exact strange d same

/-- Reads the byte whose escape a text begins with. -/
def readByte? : List Char → Option (UInt8 × List Char)
  | [] => none
  | '\\' :: 't' :: rest => some (0x09, rest)
  | '\\' :: 'n' :: rest => some (0x0A, rest)
  | '\\' :: 'r' :: rest => some (0x0D, rest)
  | '\\' :: 'x' :: high :: low :: rest => some (UInt8.ofNat (ofHex [high, low]), rest)
  | '\\' :: quoted :: rest => some (UInt8.ofNat quoted.toNat, rest)
  | shown :: rest => some (UInt8.ofNat shown.toNat, rest)

theorem toNat_shown (byte : UInt8) : (Char.ofNat byte.toNat).toNat = byte.toNat := by
  have valid : byte.toNat.isValidChar := Or.inl (Nat.lt_trans byte.toNat_lt (by decide))
  rw [Char.ofNat, dif_pos valid]
  rfl

/-- A byte is read back from its escape, whatever follows. -/
theorem readByte?_escapedByte (byte : UInt8) (rest : List Char) :
    readByte? (escapedByte byte ++ rest) = some (byte, rest) := by
  rw [escapedByte]
  split_ifs with tab newline ret double single backslash shown
  · rw [tab]; rfl
  · rw [newline]; rfl
  · rw [ret]; rfl
  · rw [double]; rfl
  · rw [single]; rfl
  · rw [backslash]; rfl
  · have bare : Char.ofNat byte.toNat ≠ '\\' := fun same => by
      have code := congrArg Char.toNat same
      rw [toNat_shown] at code
      exact backslash (UInt8.toNat_inj.mp code)
    have read : readByte? (Char.ofNat byte.toNat :: rest) =
        some (UInt8.ofNat (Char.ofNat byte.toNat).toNat, rest) := by simp [readByte?, bare]
    rw [List.singleton_append, read, toNat_shown, UInt8.ofNat_toNat]
  · have value : ofHex (hexDigits 2 byte.toNat) = byte.toNat := by
      rw [ofHex_hexDigits]
      exact Nat.mod_eq_of_lt byte.toNat_lt
    have read : readByte? ('\\' :: 'x' :: hexDigits 2 byte.toNat ++ rest) =
        some (UInt8.ofNat (ofHex (hexDigits 2 byte.toNat)), rest) := rfl
    rw [read, value, UInt8.ofNat_toNat]

theorem escapedByte_append_inj {a b : UInt8} {rest rest' : List Char} :
    escapedByte a ++ rest = escapedByte b ++ rest' ↔ a = b ∧ rest = rest' := by
  constructor
  · intro same
    have read := congrArg readByte? same
    rw [readByte?_escapedByte, readByte?_escapedByte] at read
    exact Prod.mk.inj (Option.some.inj read)
  · rintro ⟨rfl, rfl⟩
    rfl

/-- No escape begins with a quote. -/
theorem escapedByte_append_ne_quote (byte : UInt8) (before after : List Char) :
    escapedByte byte ++ before ≠ '"' :: after := by
  intro same
  have read := congrArg readByte? same
  rw [readByte?_escapedByte] at read
  obtain ⟨rfl, rfl⟩ := Prod.mk.inj (Option.some.inj read)
  simp [escapedByte] at same

/-- The first quote that is not escaped ends the bytes. -/
theorem flatMap_escapedByte_inj {first second : List UInt8} {rest rest' : List Char}
    (same : first.flatMap escapedByte ++ '"' :: rest =
      second.flatMap escapedByte ++ '"' :: rest') : first = second ∧ rest = rest' := by
  induction first generalizing second with
  | nil =>
    cases second with
    | nil => exact ⟨rfl, (List.cons.inj same).2⟩
    | cons b second =>
      rw [List.flatMap_cons, List.append_assoc] at same
      exact absurd same.symm (escapedByte_append_ne_quote b _ _)
  | cons a first ih =>
    rw [List.flatMap_cons, List.append_assoc] at same
    cases second with
    | nil => exact absurd same (escapedByte_append_ne_quote a _ _)
    | cons b second =>
      rw [List.flatMap_cons, List.append_assoc, escapedByte_append_inj] at same
      obtain ⟨rfl, behind⟩ := same
      obtain ⟨rfl, rfl⟩ := ih behind
      exact ⟨rfl, rfl⟩

theorem toList_quotedBytes (bytes : List UInt8) :
    (quotedBytes bytes).toList = '"' :: bytes.flatMap escapedByte ++ ['"'] := by
  rw [quotedBytes, String.toList_ofList]

theorem quotedBytes_inj {first second : List UInt8} :
    quotedBytes first = quotedBytes second ↔ first = second := by
  refine ⟨fun same => ?_, congrArg quotedBytes⟩
  have chars := congrArg String.toList same
  rw [toList_quotedBytes, toList_quotedBytes] at chars
  exact (flatMap_escapedByte_inj (List.cons.inj chars).2).1

/-- Escapes are ASCII text. -/
theorem lt_of_mem_escapedByte {byte : UInt8} {c : Char} (listed : c ∈ escapedByte byte) :
    c.toNat < 0x80 := by
  have letters : ∀ letter ∈ ['t', 'n', 'r', '"', '\'', '\\'],
      c ∈ ['\\', letter] → c.toNat < 0x80 := by
    simp only [List.mem_cons, List.not_mem_nil, or_false]
    rintro letter (rfl | rfl | rfl | rfl | rfl | rfl) (rfl | rfl) <;> decide
  rw [escapedByte] at listed
  split_ifs at listed with tab newline ret double single backslash shown
  iterate 6 exact letters _ (by decide) listed
  · have high : byte.toNat ≤ 0x7E := by
      have ends := (Bool.and_eq_true _ _).mp shown
      exact UInt8.le_iff_toNat_le.mp (of_decide_eq_true ends.2)
    rw [List.mem_singleton.mp listed, toNat_shown]
    omega
  · have digits : ∀ d : Fin 16, (Nat.digitChar d).toNat < 0x80 := by decide
    rcases List.mem_cons.mp listed with rfl | listed
    · decide
    rcases List.mem_cons.mp listed with rfl | listed
    · decide
    obtain ⟨d, rfl⟩ := mem_hexDigits listed
    exact digits d

theorem lt_of_mem_quotedBytes {bytes : List UInt8} {c : Char}
    (listed : c ∈ (quotedBytes bytes).toList) : c.toNat < 0x80 := by
  rw [toList_quotedBytes, List.cons_append, List.mem_cons, List.mem_append, List.mem_flatMap,
    List.mem_singleton] at listed
  rcases listed with rfl | ⟨byte, -, listed⟩ | rfl
  · decide
  · exact lt_of_mem_escapedByte listed
  · decide

end TripleCube.Text
