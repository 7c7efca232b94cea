import Mathlib.Algebra.Group.Nat.Defs

/-! Words that are read with a sign. Below `2 ^ 31` a word is the same number with a sign and
without. -/
namespace TripleCube

theorem toInt_toInt32 {word : UInt32} (small : word.toNat < 2 ^ 31) :
    word.toInt32.toInt = word.toNat := by
  rw [← Int32.toInt_toBitVec, UInt32.toBitVec_toInt32, BitVec.toInt_eq_toNat_cond,
    UInt32.toNat_toBitVec, if_pos (by omega)]

theorem toInt32_nonneg {word : UInt32} (small : word.toNat < 2 ^ 31) : 0 ≤ word.toInt32 := by
  rw [Int32.le_iff_toInt_le, toInt_toInt32 small]
  exact Int.natCast_nonneg _

theorem toNat_toUInt32_lt {value : Int32} (nonneg : 0 ≤ value) : value.toUInt32.toNat < 2 ^ 31 := by
  rw [Int32.toNat_toUInt32_of_le nonneg]
  have bound := value.toInt_lt
  simp only [Int32.toNatClampNeg]
  omega

theorem not_lt_zero {value : Int32} (nonneg : 0 ≤ value) : ¬ value < 0 := Int32.not_lt.mpr nonneg

end TripleCube
