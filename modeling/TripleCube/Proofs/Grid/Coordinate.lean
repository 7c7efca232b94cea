import TripleCube.Grid.Axis
import TripleCube.Proofs.SignedWord

/-! Coordinates and the words they are kept as. A signed coordinate from zero up and a word
below `2 ^ 31` are the same number, so reading a coordinate and showing a cell are inverse
and keep the order. -/
namespace TripleCube

/-- Words that some coordinate names. -/
def IsCoordinate (index : UInt32) : Prop := index.toNat < 2 ^ 31

theorem IsCoordinate.toInt32_nonneg {index : UInt32} (valid : IsCoordinate index) :
    0 ≤ index.toInt32 := TripleCube.toInt32_nonneg valid

theorem isCoordinate_toUInt32 {value : Int32} (nonneg : 0 ≤ value) :
    IsCoordinate value.toUInt32 := toNat_toUInt32_lt nonneg

theorem toInt32_lt_toInt32 {a b : UInt32} (va : IsCoordinate a) (vb : IsCoordinate b) :
    a.toInt32 < b.toInt32 ↔ a < b := by
  rw [Int32.lt_iff_toInt_lt, toInt_toInt32 va, toInt_toInt32 vb, UInt32.lt_iff_toNat_lt,
    Int.ofNat_lt]

theorem toInt32_inj {a b : UInt32} : a.toInt32 = b.toInt32 ↔ a = b := by
  constructor
  · intro same
    rw [← UInt32.toUInt32_toInt32 a, same, UInt32.toUInt32_toInt32]
  · rintro rfl
    rfl

theorem toInt32_eq_iff {index : UInt32} {value : Int32} :
    index.toInt32 = value ↔ index = value.toUInt32 := by
  rw [← toInt32_inj, Int32.toInt32_toUInt32 value]

theorem toUInt32_inj {a b : Int32} : a.toUInt32 = b.toUInt32 ↔ a = b := by
  rw [← toInt32_eq_iff, Int32.toInt32_toUInt32]

/-- The words range over all coordinates. -/
theorem forall_toInt32 {holds : Int32 → Prop} :
    (∀ word : UInt32, holds word.toInt32) ↔ ∀ value, holds value :=
  ⟨fun all value => Int32.toInt32_toUInt32 value ▸ all value.toUInt32, fun all _ => all _⟩

theorem ne_wild {value : Int32} (nonneg : 0 ≤ value) : value ≠ wild := by
  rintro rfl
  revert nonneg
  decide

namespace Axis

theorem concrete_of_nonneg (axis : Dimension) {value : Int32} (nonneg : 0 ≤ value) :
    concrete axis value = .ok value.toUInt32 := by
  rw [concrete, if_neg (ne_wild nonneg), if_neg (not_lt_zero nonneg)]

theorem concrete_of_neg (axis : Dimension) {value : Int32} (negative : ¬ 0 ≤ value) :
    ∃ e, concrete axis value = .error e := by
  rw [concrete]
  split
  · exact ⟨_, rfl⟩
  · exact ⟨_, if_pos (Int32.not_le.mp negative)⟩

/-- What a coordinate of a pattern admits. -/
def ofPattern (value : Int32) : Axis := if value = wild then any else only value.toUInt32

/-- A pattern is open along an axis or names a cell there. -/
theorem wild_or_nonneg {value : Int32} (ge : wild ≤ value) : value = wild ∨ 0 ≤ value := by
  rw [← Int32.toInt_inj, Int32.le_iff_toInt_le]
  rw [Int32.le_iff_toInt_le] at ge
  have minusOne : wild.toInt = -1 := by decide
  have zero : (0 : Int32).toInt = 0 := by decide
  omega

theorem pattern_eq (axis : Dimension) {value : Int32} (ge : wild ≤ value) :
    pattern axis value = .ok (ofPattern value) := by
  rw [pattern, ofPattern]
  rcases wild_or_nonneg ge with isWild | nonneg
  · rw [if_pos isWild, if_pos isWild]
  · rw [if_neg (ne_wild nonneg), if_neg (ne_wild nonneg), if_neg (not_lt_zero nonneg)]

end Axis

end TripleCube
