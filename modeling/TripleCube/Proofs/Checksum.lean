import Mathlib.Algebra.CharP.Two
import Mathlib.Algebra.Field.ZMod
import Mathlib.Data.Nat.Bitwise
import Mathlib.RingTheory.AdjoinRoot
import TripleCube.Checksum
import TripleCube.Proofs.Bytes.Digits

/-! Checks as remainders of polynomials over the two-element field. Bits are coefficients, and
the first bit has the greatest power; the lowest bit of a byte is its first. A register stands
for what is left when the bytes are divided by the polynomial of the check, so damage that a
check does not see is a multiple of it, which a burst shorter than the register is not. -/
namespace TripleCube.Crc

open Polynomial

/-- The lowest bits of a number as coefficients, the lowest one with the greatest power. -/
noncomputable def bits : (width : Nat) → Nat → (ZMod 2)[X]
  | 0, _ => 0
  | width + 1, n => C (n : ZMod 2) * X ^ width + bits width (n / 2)

variable {width m n : Nat}

theorem bits_xor (width m n : Nat) : bits width (m ^^^ n) = bits width m + bits width n := by
  induction width generalizing m n with
  | zero => simp [bits]
  | succ width ih =>
    have lowest : ((m ^^^ n : Nat) : ZMod 2) = m + n := by
      rw [← Nat.cast_add, ZMod.natCast_eq_natCast_iff']
      exact Nat.xor_mod_two_eq
    rw [bits, bits, bits, Nat.xor_div_two, ih, lowest, C_add]
    ring

theorem bits_add_mul (small : m < 2 ^ width) (above n : Nat) :
    bits (width + above) (m + 2 ^ width * n) = X ^ above * bits width m + bits above n := by
  induction width generalizing m with
  | zero =>
    obtain rfl : m = 0 := by simpa using small
    simp [bits]
  | succ width ih =>
    have half : (m + 2 ^ (width + 1) * n) / 2 = m / 2 + 2 ^ width * n := by
      rw [Nat.pow_succ', Nat.mul_assoc]
      omega
    have lowest : ((m + 2 ^ (width + 1) * n : Nat) : ZMod 2) = m := by
      rw [ZMod.natCast_eq_natCast_iff', Nat.pow_succ', Nat.mul_assoc]
      omega
    rw [Nat.add_right_comm, bits, half, lowest, ih (by omega), bits, pow_add]
    ring

@[simp] theorem bits_zero (width : Nat) : bits width 0 = 0 := by
  induction width with
  | zero => rfl
  | succ width ih => simp [bits, ih]

theorem bits_of_lt (small : m < 2 ^ width) (above : Nat) :
    bits (width + above) m = X ^ above * bits width m := by
  simpa using bits_add_mul small above 0

theorem degree_bits_lt (width n : Nat) : (bits width n).degree < width := by
  induction width generalizing n with
  | zero => simp [bits]
  | succ width ih =>
    have first : (C (n : ZMod 2) * X ^ width).degree < ((width + 1 : Nat) : WithBot Nat) :=
      (degree_C_mul_X_pow_le _ _).trans_lt (by exact_mod_cast Nat.lt_succ_self width)
    have rest : (bits width (n / 2)).degree < ((width + 1 : Nat) : WithBot Nat) :=
      (ih _).trans (by exact_mod_cast Nat.lt_succ_self width)
    exact (degree_add_le _ _).trans_lt (max_lt first rest)

theorem bits_inj (sm : m < 2 ^ width) (sn : n < 2 ^ width) (same : bits width m = bits width n) :
    m = n := by
  induction width generalizing m n with
  | zero =>
    rw [Nat.pow_zero] at sm sn
    omega
  | succ width ih =>
    have top : ∀ k, (bits (width + 1) k).coeff width = k := fun k => by
      rw [bits, coeff_add, coeff_C_mul_X_pow, if_pos rfl,
        coeff_eq_zero_of_degree_lt (degree_bits_lt width _), add_zero]
    have lowest : (m : ZMod 2) = n := by rw [← top, same, top]
    have rest : bits width (m / 2) = bits width (n / 2) := by
      rw [bits, bits, lowest] at same
      exact add_left_cancel same
    have halves := ih (by omega) (by omega) rest
    rw [ZMod.natCast_eq_natCast_iff'] at lowest
    omega

/-- The polynomial that a register stands for. -/
noncomputable def residue (register : UInt32) : (ZMod 2)[X] := bits 32 register.toNat

theorem residue_xor (r s : UInt32) : residue (r ^^^ s) = residue r + residue s := by
  rw [residue, UInt32.toNat_xor, bits_xor, residue, residue]

theorem residue_inj {r s : UInt32} : residue r = residue s ↔ r = s :=
  ⟨fun same => UInt32.toNat_inj.mp (bits_inj r.toNat_lt s.toNat_lt same), congrArg residue⟩

theorem degree_residue_lt (register : UInt32) : (residue register).degree < (32 : Nat) :=
  degree_bits_lt 32 register.toNat

/-- The polynomial that is divided by, whose greatest power is not stored. -/
noncomputable def generator (crc : Crc) : (ZMod 2)[X] := X ^ 32 + residue crc.polynomial

theorem generator_monic (crc : Crc) : crc.generator.Monic :=
  monic_X_pow_add (degree_residue_lt _)

theorem degree_generator (crc : Crc) : crc.generator.degree = (32 : Nat) := by
  rw [generator, degree_add_eq_left_of_degree_lt, degree_X_pow]
  rw [degree_X_pow]
  exact degree_residue_lt _

/-- The bits of bytes, in the order in which they are read. -/
noncomputable def message : List UInt8 → (ZMod 2)[X]
  | [] => 0
  | byte :: rest => bits 8 byte.toNat * X ^ (8 * rest.length) + message rest

theorem message_eq (bytes : List UInt8) :
    message bytes = bits (8 * bytes.length) (Bytes.ofLittle bytes) := by
  induction bytes with
  | nil => rfl
  | cons byte rest ih =>
    have digits : Bytes.ofLittle (byte :: rest) = byte.toNat + 2 ^ 8 * Bytes.ofLittle rest := rfl
    rw [message, ih, digits, List.length_cons, Nat.mul_succ, Nat.add_comm (8 * _),
      bits_add_mul byte.toNat_lt, mul_comm]

theorem message_append (first second : List UInt8) :
    message (first ++ second) = X ^ (8 * second.length) * message first + message second := by
  induction first with
  | nil => simp [message]
  | cons byte rest ih =>
    rw [List.cons_append, message, message, ih, List.length_append, Nat.mul_add, pow_add]
    ring

theorem degree_message_lt (bytes : List UInt8) :
    (message bytes).degree < (8 * bytes.length : Nat) := by
  rw [message_eq]
  exact degree_bits_lt _ _

theorem message_inj {first second : List UInt8} (length : first.length = second.length)
    (same : message first = message second) : first = second := by
  have small : ∀ bytes, Bytes.ofLittle bytes < 2 ^ (8 * bytes.length) := fun bytes => by
    have bound := Bytes.ofLittle_lt bytes
    rwa [pow_mul]
  rw [message_eq, message_eq, length] at same
  have numbers := bits_inj (length ▸ small first) (small second) same
  rw [← Bytes.little_ofLittle first, ← Bytes.little_ofLittle second, length, numbers]

section Division

variable (crc : Crc)

/-- To divide a bit out of the register is to multiply by the indeterminate, up to the generator. -/
theorem residue_shift (register : UInt32) :
    X * residue register =
      residue (crc.shift register) + C (register.toNat : ZMod 2) * crc.generator := by
  have halved : residue (register >>> 1) = X * bits 31 (register.toNat / 2) := by
    have half : (register >>> 1).toNat = register.toNat / 2 := by
      simp [Nat.shiftRight_eq_div_pow]
    have small : register.toNat / 2 < 2 ^ 31 := by
      have bound := register.toNat_lt
      omega
    rw [residue, half, bits_of_lt small 1, pow_one]
  have split : X * residue register =
      C (register.toNat : ZMod 2) * X ^ 32 + residue (register >>> 1) := by
    rw [halved, residue, bits]
    ring
  have lowest : register &&& 1 = 1 ↔ Odd register.toNat := by
    rw [Nat.odd_iff, ← UInt32.toNat_inj, UInt32.toNat_and, ← Nat.and_one_is_mod]
    rfl
  rw [split, shift, generator]
  by_cases odd : Odd register.toNat
  · rw [if_pos (lowest.mpr odd), residue_xor, ZMod.natCast_eq_one_iff_odd.mpr odd, C_1]
    -- The lower powers of the generator are added twice, which leaves nothing of them.
    linear_combination -CharTwo.add_self_eq_zero (residue crc.polynomial)
  · have even := ZMod.natCast_eq_zero_iff_even.mpr (Nat.not_odd_iff_even.mp odd)
    rw [if_neg (odd ∘ lowest.mp), even, C_0]
    ring

theorem mk_shift (register : UInt32) :
    AdjoinRoot.mk crc.generator (residue (crc.shift register)) =
      AdjoinRoot.mk crc.generator (X * residue register) := by
  rw [crc.residue_shift, map_add, map_mul, AdjoinRoot.mk_self, mul_zero, add_zero]

theorem mk_shifts (count : Nat) (register : UInt32) :
    AdjoinRoot.mk crc.generator (residue (crc.shifts count register)) =
      AdjoinRoot.mk crc.generator (X ^ count * residue register) := by
  induction count generalizing register with
  | zero => rw [shifts, pow_zero, one_mul]
  | succ count ih => rw [shifts, ih, map_mul, mk_shift, ← map_mul, pow_succ, mul_assoc]

theorem mk_step (register : UInt32) (byte : UInt8) :
    AdjoinRoot.mk crc.generator (residue (crc.step register byte)) =
      AdjoinRoot.mk crc.generator (X ^ 8 * residue register + X ^ 32 * bits 8 byte.toNat) := by
  have widened : residue byte.toUInt32 = X ^ 24 * bits 8 byte.toNat :=
    bits_of_lt byte.toNat_lt 24
  rw [step, mk_shifts, residue_xor, widened]
  exact congrArg _ (by ring)

/-- What the register stands for behind some bytes, up to multiples of the generator. -/
theorem mk_update (state : State) (bytes : List UInt8) :
    AdjoinRoot.mk crc.generator (residue (crc.update state bytes).register) =
      AdjoinRoot.mk crc.generator
        (X ^ (8 * bytes.length) * residue state.register + X ^ 32 * message bytes) := by
  induction bytes generalizing state with
  | nil => simp [update, message]
  | cons byte rest ih =>
    have first : crc.update state (byte :: rest) =
        crc.update ⟨crc.step state.register byte⟩ rest := rfl
    rw [first, ih, map_add, map_mul, mk_step, ← map_mul, ← map_add, message, List.length_cons]
    exact congrArg _ (by ring)

/-- The register is the remainder of all that was put into it. -/
theorem residue_update (state : State) (bytes : List UInt8) :
    residue (crc.update state bytes).register =
      (X ^ (8 * bytes.length) * residue state.register + X ^ 32 * message bytes) %ₘ
        crc.generator := by
  have reduced : residue (crc.update state bytes).register %ₘ crc.generator =
      residue (crc.update state bytes).register := by
    rw [modByMonic_eq_self_iff crc.generator_monic, degree_generator]
    exact degree_residue_lt _
  rw [← reduced]
  exact modByMonic_eq_of_dvd_sub crc.generator_monic (AdjoinRoot.mk_eq_mk.mp (crc.mk_update _ _))

end Division

variable {crc : Crc}

/-- A polynomial shorter than the generator is not a multiple of it, wherever it stands. -/
theorem eq_zero_of_dvd_shifted (unit : crc.generator.coeff 0 ≠ 0) {count : Nat} {p : (ZMod 2)[X]}
    (short : p.degree < (32 : Nat)) (multiple : crc.generator ∣ X ^ count * p) : p = 0 := by
  have coprime : IsCoprime X crc.generator := by
    rw [irreducible_X.coprime_iff_not_dvd, X_dvd_iff]
    exact unit
  rw [← crc.degree_generator] at short
  exact eq_zero_of_dvd_of_degree_lt (coprime.symm.pow_right.dvd_of_dvd_mul_left multiple) short

/-- Bytes that differ in a window of four lead from one register to different ones. -/
theorem window_eq_of_update_eq (unit : crc.generator.coeff 0 ≠ 0) {state : State}
    {window window' after : List UInt8} (short : window.length ≤ 4)
    (length : window.length = window'.length)
    (same : crc.update state (window ++ after) = crc.update state (window' ++ after)) :
    window = window' := by
  have classes := crc.mk_update state (window ++ after)
  rw [same, crc.mk_update, message_append, message_append, List.length_append, List.length_append,
    length] at classes
  have multiple : crc.generator ∣
      X ^ (32 + 8 * after.length) * (message window' - message window) := by
    convert AdjoinRoot.mk_eq_mk.mp classes using 1
    ring
  have room : (8 * window.length : Nat) ≤ ((32 : Nat) : WithBot Nat) := by
    exact_mod_cast by omega
  have smaller : (message window' - message window).degree < (32 : Nat) :=
    (degree_sub_le _ _).trans_lt (max_lt
      ((degree_message_lt window').trans_le (length ▸ room))
      ((degree_message_lt window).trans_le room))
  have zero := eq_zero_of_dvd_shifted unit smaller multiple
  exact message_inj length (sub_eq_zero.mp zero).symm

theorem window_eq_of_checksum_eq (unit : crc.generator.coeff 0 ≠ 0)
    {before window window' after : List UInt8} (short : window.length ≤ 4)
    (length : window.length = window'.length)
    (same : crc.checksum (before ++ (window ++ after)) =
      crc.checksum (before ++ (window' ++ after))) : window = window' := by
  rw [checksum, checksum, crc.update_append start before, crc.update_append start before] at same
  exact window_eq_of_update_eq unit short length (congrArg State.mk (UInt32.not_inj.mp same))

/-- The polynomial of CRC-32/ISCSI. -/
noncomputable def iscsi : (ZMod 2)[X] :=
  X ^ 32 + X ^ 28 + X ^ 27 + X ^ 26 + X ^ 25 + X ^ 23 + X ^ 22 + X ^ 20 + X ^ 19 + X ^ 18 +
    X ^ 14 + X ^ 13 + X ^ 11 + X ^ 10 + X ^ 9 + X ^ 8 + X ^ 6 + 1

theorem generator_castagnoli : castagnoli.generator = iscsi := by
  have word : castagnoli.polynomial.toNat = 0x82F63B78 := rfl
  have bit : ∀ n : Nat, (n : ZMod 2) = if n % 2 = 1 then 1 else 0 := fun n => by
    split
    · next odd => exact ZMod.natCast_eq_one_iff_odd.mpr (Nat.odd_iff.mpr odd)
    · next even => exact ZMod.natCast_eq_zero_iff_even.mpr (Nat.even_iff.mpr (by omega))
  rw [generator, residue, word, iscsi]
  simp only [bits, bit, Nat.reduceDiv, Nat.reduceMod]
  norm_num
  ring

theorem castagnoli_unit : castagnoli.generator.coeff 0 ≠ 0 := by
  rw [generator_castagnoli]
  simp [iscsi, coeff_X_pow, coeff_one]

/-- The CRC-32/ISCSI of some bytes: the register starts with all bits set, the division is that
of the bits of the bytes, and the remainder is stored with all bits inverted. -/
def IsIscsi (bytes : List UInt8) (check : UInt32) : Prop :=
  residue (~~~check) =
    (X ^ (8 * bytes.length) * residue 0xFFFFFFFF + X ^ 32 * message bytes) %ₘ iscsi

theorem isIscsi_iff {bytes : List UInt8} {check : UInt32} :
    IsIscsi bytes check ↔ check = castagnoli.checksum bytes := by
  have divided : residue (castagnoli.update start bytes).register =
      (X ^ (8 * bytes.length) * residue 0xFFFFFFFF + X ^ 32 * message bytes) %ₘ iscsi :=
    generator_castagnoli ▸ castagnoli.residue_update start bytes
  rw [IsIscsi, ← divided, residue_inj]
  exact UInt32.not_eq_comm

/-- The check value of the algorithm. -/
example : castagnoli.checksum ("123456789".toList.map fun digit => UInt8.ofNat digit.toNat) =
    0xE3069283 := by
  decide +kernel

end TripleCube.Crc
