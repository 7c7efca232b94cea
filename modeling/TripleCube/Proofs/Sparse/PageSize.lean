import Mathlib.Algebra.Group.Nat.Defs
import TripleCube.Sparse.PageSize

/-! Page arithmetic without words. `position` is where a slot lies in the unbounded index
space; below `2 ^ 32` it is the index itself, so splitting and joining are inverse there. -/
namespace TripleCube

/-- The position behind an index is at or before the indices that are greater. -/
theorem succ_le_iff (index other : UInt32) :
    index.toUInt64 + 1 ≤ other.toUInt64 ↔ index < other := by
  have small := index.toNat_lt
  have one : (1 : UInt64).toNat = 1 := rfl
  rw [UInt64.le_iff_toNat_le, UInt64.toNat_add, UInt32.toNat_toUInt64, UInt32.toNat_toUInt64,
    UInt32.lt_iff_toNat_lt]
  omega

namespace PageSize

variable (p : PageSize)

/-- Where a slot of a page lies, also when it lies past the index space. -/
def position (offset : UInt32) (slot : Nat) : Nat := offset.toNat * p.slots + slot

/-- Slots that have an index: they are in the page, and their index is a word. -/
structure HasIndex (offset : UInt32) (slot : Nat) : Prop where
  slot_lt : slot < p.slots
  position_lt : p.position offset slot < 2 ^ 32

variable {p}

theorem slots_lt : p.slots < 2 ^ 32 := p.val.toNat_lt

theorem toNat_offset (index : UInt32) : (p.offset index).toNat = index.toNat / p.slots := by
  simp [offset, slots]

theorem slot_eq (index : UInt32) : p.slot index = index.toNat % p.slots := by
  simp [slot, slots]

theorem position_offset_slot (index : UInt32) :
    p.position (p.offset index) (p.slot index) = index.toNat := by
  rw [position, toNat_offset, slot_eq, Nat.mul_comm]
  exact Nat.div_add_mod index.toNat p.slots

theorem hasIndex_offset_slot (index : UInt32) : p.HasIndex (p.offset index) (p.slot index) :=
  ⟨p.slot_lt index, by rw [position_offset_slot]; exact index.toNat_lt⟩

theorem toNat_base (offset : UInt32) : (p.base offset).toNat = offset.toNat * p.slots := by
  have product : offset.toNat * p.slots ≤ (2 ^ 32 - 1) * (2 ^ 32 - 1) :=
    Nat.mul_le_mul (by have := offset.toNat_lt; omega) (by have := p.slots_lt; omega)
  rw [base, UInt64.toNat_mul, UInt32.toNat_toUInt64, UInt32.toNat_toUInt64]
  exact Nat.mod_eq_of_lt (by simp only [slots] at product ⊢; omega)

theorem toNat_index {offset : UInt32} {slot : Nat} (valid : p.HasIndex offset slot) :
    (p.index offset slot).toNat = p.position offset slot := by
  have small : p.position offset slot < 2 ^ 32 := valid.position_lt
  have slotSmall : slot < 2 ^ 32 := Nat.lt_trans valid.slot_lt p.slots_lt
  rw [position] at small ⊢
  rw [index, UInt64.toNat_toUInt32, UInt64.toNat_add, toNat_base, Nat.toUInt64_eq,
    UInt64.toNat_ofNat_of_lt' (by simp only [UInt64.size]; omega)]
  omega

@[simp] theorem index_offset_slot (index : UInt32) :
    p.index (p.offset index) (p.slot index) = index := by
  apply UInt32.toNat_inj.mp
  rw [toNat_index (hasIndex_offset_slot index), position_offset_slot]

theorem offset_index {offset : UInt32} {slot : Nat} (valid : p.HasIndex offset slot) :
    p.offset (p.index offset slot) = offset := by
  apply UInt32.toNat_inj.mp
  rw [toNat_offset, toNat_index valid, position, Nat.mul_comm,
    Nat.mul_add_div p.slots_pos, Nat.div_eq_of_lt valid.slot_lt, Nat.add_zero]

theorem slot_index {offset : UInt32} {slot : Nat} (valid : p.HasIndex offset slot) :
    p.slot (p.index offset slot) = slot := by
  rw [slot_eq, toNat_index valid, position, Nat.mul_comm, Nat.mul_add_mod,
    Nat.mod_eq_of_lt valid.slot_lt]

/-- Slots with an index are told apart by it. -/
theorem eq_of_index_eq {offset : UInt32} {slot : Nat} (valid : p.HasIndex offset slot)
    {index : UInt32} (same : p.index offset slot = index) :
    p.offset index = offset ∧ p.slot index = slot := by
  subst same
  exact ⟨offset_index valid, slot_index valid⟩

/-- Indices are equal when they lie at the same slot of the same page. -/
theorem eq_iff_offset_slot (a b : UInt32) :
    a = b ↔ p.offset a = p.offset b ∧ p.slot a = p.slot b := by
  constructor
  · rintro rfl
    exact ⟨rfl, rfl⟩
  · rintro ⟨offsets, slots⟩
    rw [← index_offset_slot (p := p) a, offsets, slots, index_offset_slot]

theorem index_lt_index_of_slot_lt {offset : UInt32} {a b : Nat} (va : p.HasIndex offset a)
    (vb : p.HasIndex offset b) (lt : a < b) : p.index offset a < p.index offset b := by
  rw [UInt32.lt_iff_toNat_lt, toNat_index va, toNat_index vb, position, position]
  omega

/-- The pages of the index space lie one behind the other. -/
theorem index_lt_index_of_offset_lt {o o' : UInt32} {a b : Nat} (va : p.HasIndex o a)
    (vb : p.HasIndex o' b) (lt : o < o') : p.index o a < p.index o' b := by
  rw [UInt32.lt_iff_toNat_lt] at lt ⊢
  rw [toNat_index va, toNat_index vb, position, position]
  have inPage := va.slot_lt
  have next : (o.toNat + 1) * p.slots ≤ o'.toNat * p.slots := Nat.mul_le_mul_right _ lt
  rw [Nat.add_mul] at next
  omega

theorem toNat_startOffset (start : UInt64) :
    (p.startOffset start).toNat = start.toNat / p.slots := by
  simp [startOffset, slots]

theorem startSlot_eq (offset : UInt32) (start : UInt64) :
    p.startSlot offset start = start.toNat - offset.toNat * p.slots := by
  rw [startSlot]
  have bound := start.toNat_lt
  have base := p.toNat_base offset
  split
  · next le =>
    rw [UInt64.toNat_sub_of_le _ _ le, base]
  · next gt =>
    rw [UInt64.le_iff_toNat_le, base] at gt
    omega

/-- No index of a page before the one in which a scan begins is scanned. -/
theorem index_lt_start {offset : UInt32} {slot : Nat} {start : UInt64}
    (valid : p.HasIndex offset slot) (before : offset.toUInt64 < p.startOffset start) :
    (p.index offset slot).toUInt64 < start := by
  rw [UInt64.lt_iff_toNat_lt, UInt32.toNat_toUInt64] at before ⊢
  rw [toNat_startOffset] at before
  rw [toNat_index valid, position]
  have inPage := valid.slot_lt
  have pages : (offset.toNat + 1) * p.slots ≤ start.toNat := by
    exact (Nat.le_div_iff_mul_le p.slots_pos).mp before
  rw [Nat.add_mul] at pages
  omega

/-- In every other page a scan begins with the slots from `startSlot` on. -/
theorem start_le_index {offset : UInt32} {slot : Nat} (start : UInt64)
    (valid : p.HasIndex offset slot) :
    start ≤ (p.index offset slot).toUInt64 ↔ p.startSlot offset start ≤ slot := by
  rw [UInt64.le_iff_toNat_le, UInt32.toNat_toUInt64, toNat_index valid, startSlot_eq, position]
  omega

end PageSize

end TripleCube
