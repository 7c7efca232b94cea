import Mathlib.Algebra.Group.Nat.Defs
import TripleCube.Bytes.Digits

/-! Reading digits back. The digits of a number keep its remainder by the power of the base. -/
namespace TripleCube.Bytes

theorem ofLittle_little (width n : Nat) : ofLittle (little width n) = n % 256 ^ width := by
  induction width generalizing n with
  | zero => simp [little, ofLittle, Nat.mod_one]
  | succ width ih =>
    rw [Nat.pow_succ, Nat.mul_comm (256 ^ width), Nat.mod_mul, ← ih]
    simp [little, ofLittle]

/-- Digits stand for a number below the power of the base. -/
theorem ofLittle_lt (digits : List UInt8) : ofLittle digits < 256 ^ digits.length := by
  induction digits with
  | nil => simp [ofLittle]
  | cons digit rest ih =>
    have bound := digit.toNat_lt
    simp only [ofLittle, List.length_cons, Nat.pow_succ]
    omega

theorem ofBig_big (width n : Nat) : ofBig (big width n) = n % 256 ^ width := by
  simp [ofBig, big, ofLittle_little]

theorem ofBig_lt (digits : List UInt8) : ofBig digits < 256 ^ digits.length := by
  simpa [ofBig] using ofLittle_lt digits.reverse

theorem big_inj {width m n : Nat} (sm : m < 256 ^ width) (sn : n < 256 ^ width)
    (same : big width m = big width n) : m = n := by
  have read := congrArg ofBig same
  rwa [ofBig_big, ofBig_big, Nat.mod_eq_of_lt sm, Nat.mod_eq_of_lt sn] at read

theorem ofBig_inj {first second : List UInt8} (length : first.length = second.length)
    (same : ofBig first = ofBig second) : first = second := by
  rw [← big_ofBig first, ← big_ofBig second, length, same]

end TripleCube.Bytes
