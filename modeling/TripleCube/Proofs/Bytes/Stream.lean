import TripleCube.Bytes.Stream
import TripleCube.Proofs.Bytes.Digits

/-! Reading and writing in pieces. What stands first in a source is read first, also where the
source is torn off behind it. A sink without a limit appends, and one with a limit up to it. -/
namespace TripleCube

theorem Bytes.ofBig_word (word : UInt32) : UInt32.ofNat (ofBig (big 4 word.toNat)) = word := by
  have small : word.toNat < 256 ^ 4 := word.toNat_lt
  rw [ofBig_big, Nat.mod_eq_of_lt small, UInt32.ofNat_toNat]

namespace Source

/-- A source with bytes put before what it has. -/
def prepend (source : Source) (bytes : List UInt8) : Source :=
  { source with bytes := bytes ++ source.bytes }

@[simp] theorem bytes_prepend (source : Source) (bytes : List UInt8) :
    (source.prepend bytes).bytes = bytes ++ source.bytes := rfl

@[simp] theorem prepend_nil (source : Source) : source.prepend [] = source := rfl

@[simp] theorem prepend_prepend (source : Source) (first second : List UInt8) :
    (source.prepend second).prepend first = source.prepend (first ++ second) := by
  simp [prepend]

/-- A source that begins with certain bytes has a rest behind them. -/
theorem exists_rest_iff {source : Source} {bytes : List UInt8} :
    (∃ rest : Source, source = rest.prepend bytes) ↔ bytes <+: source.bytes := by
  constructor
  · rintro ⟨rest, rfl⟩
    exact List.prefix_append bytes rest.bytes
  · rintro ⟨behind, same⟩
    exact ⟨⟨behind, source.failure⟩, by simp [prepend, same]⟩

/-- Reading a number of bytes succeeds where there are so many, and takes them off. -/
theorem take_eq_ok {source rest : Source} {count : Nat} {bytes : List UInt8} :
    source.take count = .ok (bytes, rest) ↔ bytes.length = count ∧ source = rest.prepend bytes := by
  rw [take]
  constructor
  · intro taken
    split at taken
    · next enough =>
      obtain ⟨rfl, rfl⟩ := Prod.mk.inj (Except.ok.inj taken)
      exact ⟨List.length_take_of_le enough, by simp [prepend]⟩
    · cases taken
  · rintro ⟨rfl, rfl⟩
    simp [prepend]

/-- Bytes up to a number are that many if they could be taken at once. -/
theorem takeUpTo_eq_ok {source rest : Source} {count : Nat} {bytes : List UInt8} :
    source.takeUpTo count = .ok (bytes, rest) ∧ bytes.length = count ↔
      bytes.length = count ∧ source = rest.prepend bytes := by
  rw [and_comm, and_congr_right_iff]
  rintro rfl
  have taken : source.take bytes.length = .ok (bytes, rest) ↔ source = rest.prepend bytes := by
    simp [take_eq_ok]
  rw [← taken, takeUpTo]
  cases outcome : source.take bytes.length with
  | ok read => rfl
  | error fault =>
    -- Where bytes are missing, those that are left are fewer than were asked for.
    have short : ¬ bytes.length ≤ source.bytes.length := fun enough => by
      simp [take, enough] at outcome
    cases fault with
    | failed cause => rfl
    | ended =>
      simp only [Except.ok.injEq, Prod.mk.injEq, reduceCtorEq, iff_false]
      rintro ⟨rfl, -⟩
      exact short (Nat.le_refl _)

/-- A source that ends behind the first `n` of some bytes. -/
def torn (bytes : List UInt8) (n : Nat) : Source := ⟨bytes.take n, none⟩

variable {first second : List UInt8} {n : Nat}

theorem torn_append_add (first second : List UInt8) (n : Nat) :
    torn (first ++ second) (first.length + n) = (torn second n).prepend first := by
  rw [torn, List.take_length_add_append]
  rfl

theorem torn_append_of_le (within : n ≤ first.length) (second : List UInt8) :
    torn (first ++ second) n = torn first n := by
  rw [torn, List.take_append_of_le_length within]
  rfl

/-- Of two pieces the first is torn or the second. -/
theorem torn_append_cases (short : n < (first ++ second).length) :
    (n < first.length ∧ torn (first ++ second) n = torn first n) ∨
      ∃ m, m < second.length ∧ torn (first ++ second) n = (torn second m).prepend first := by
  by_cases within : n < first.length
  · exact .inl ⟨within, torn_append_of_le (Nat.le_of_lt within) second⟩
  · obtain ⟨m, rfl⟩ := Nat.exists_eq_add_of_le (Nat.not_lt.mp within)
    rw [List.length_append] at short
    exact .inr ⟨m, by omega, torn_append_add first second m⟩

/-- A piece that is torn is not read. -/
theorem take_torn {count : Nat} (length : first.length = count) (short : n < count) :
    (torn first n).take count = .error .ended := by
  have fewer : ¬ count ≤ (first.take n).length := by
    rw [List.length_take]
    omega
  rw [take, torn, if_neg fewer]
  rfl

theorem takeUpTo_torn (short : n < first.length) :
    (torn first n).takeUpTo first.length = .ok (first.take n, ⟨[], none⟩) := by
  rw [takeUpTo, take_torn rfl short]
  rfl

end Source

theorem Sink.write_limited {sink : Sink} {n : Nat} {cause : String}
    (room : sink.room = some (n, cause)) (bytes : List UInt8) :
    sink.write bytes = if bytes.length ≤ n then
        .ok { sink with accepted := sink.accepted ++ bytes, room := some (n - bytes.length, cause) }
      else .error cause := by
  rw [write, room]

theorem Sink.write_eq {sink : Sink} (unlimited : sink.room = none) (bytes : List UInt8) :
    sink.write bytes = .ok { sink with accepted := sink.accepted ++ bytes } := by
  rw [write, unlimited]

end TripleCube
