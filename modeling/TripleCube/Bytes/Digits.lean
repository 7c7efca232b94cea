/-! Numbers as bytes: the digits of a number to base 256, a fixed count of them. -/
namespace TripleCube.Bytes

/-- The lowest `width` digits, least first. -/
def little : (width : Nat) → Nat → List UInt8
  | 0, _ => []
  | width + 1, n => UInt8.ofNat n :: little width (n / 256)

def ofLittle : List UInt8 → Nat
  | [] => 0
  | digit :: rest => digit.toNat + 256 * ofLittle rest

/-- The lowest `width` digits, greatest first. -/
def big (width n : Nat) : List UInt8 := (little width n).reverse

def ofBig (digits : List UInt8) : Nat := ofLittle digits.reverse

@[simp] theorem length_little (width n : Nat) : (little width n).length = width := by
  induction width generalizing n with
  | zero => rfl
  | succ width ih => simp [little, ih]

@[simp] theorem length_big (width n : Nat) : (big width n).length = width := by simp [big]

theorem little_ofLittle (digits : List UInt8) :
    little digits.length (ofLittle digits) = digits := by
  induction digits with
  | nil => rfl
  | cons digit rest ih =>
    have bound := digit.toNat_lt
    simp only [List.length_cons, little, ofLittle]
    rw [Nat.add_mul_div_left _ _ (by omega), Nat.div_eq_of_lt (by omega), Nat.zero_add, ih]
    congr 1
    apply UInt8.toNat_inj.mp
    simp

theorem big_ofBig (digits : List UInt8) : big digits.length (ofBig digits) = digits := by
  have h := little_ofLittle digits.reverse
  rw [List.length_reverse] at h
  simp [big, ofBig, h]

end TripleCube.Bytes
