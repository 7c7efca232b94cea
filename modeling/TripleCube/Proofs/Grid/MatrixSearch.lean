import TripleCube.Grid.MatrixSearch
import TripleCube.Proofs.Grid.Matrix
import TripleCube.Proofs.Traversal

/-! One step of a matrix search, at any place and over any matrix. `remaining` lists the
points that a search has still to yield; a step yields the first of them, and the rest is
what remains at the place behind it. -/
namespace TripleCube.Matrix.Place

variable {p : PageSize} {m : Matrix p} {x y : Axis} {place : Place}

/-- A search stands within a row only if it wants every cell of that row. -/
def Valid (x y : Axis) : Place → Prop
  | .row r _ => x = .any ∧ y.admits r = true
  | .rows _ => True
  | .finished => True

/-- Whether a point is ahead of a place and matches the axes. -/
def admits (x y : Axis) : Place → UInt32 × UInt32 → Bool
  | .finished, _ => false
  | .rows start, point =>
    y.admits point.1 && decide (start ≤ point.1.toUInt64) && x.admits point.2
  | .row r bit, point =>
    y.admits point.1 && (r == point.1 && decide (bit ≤ point.2.toUInt64) ||
      decide (r.toUInt64 + 1 ≤ point.1.toUInt64) && x.admits point.2)

/-- What a search has still to yield, in order. -/
def remaining (m : Matrix p) (x y : Axis) (place : Place) : List (UInt32 × UInt32) :=
  m.points.filter (place.admits x y)

@[simp] theorem remaining_finished (m : Matrix p) (x y : Axis) : remaining m x y .finished = [] :=
  List.filter_eq_nil_iff.mpr (by simp [admits])

/-- The answer and the next place of a step that found a point, or none. -/
def found (x : Axis) : Option (UInt32 × UInt32) → Option Cell × Place
  | some point => (some (cellOf point), behind x point.2 point.1)
  | none => (none, .finished)

theorem hit?_any_eq {row : BitSet p} (wf : row.WellFormed) (start : UInt64) :
    hit? row .any start = (row.toList.filter fun index => start ≤ index.toUInt64).head? :=
  BitSet.next?_eq wf start

theorem hit?_eq {row : BitSet p} (wf : row.WellFormed) (x : Axis) :
    hit? row x 0 = (row.toList.filter x.admits).head? := by
  cases x with
  | any =>
    rw [hit?_any_eq wf]
    refine congrArg List.head? (List.filter_congr fun index _ => ?_)
    simp
  | only index =>
    rw [hit?, List.head?_filter]
    by_cases set : row.contains index = true
    · rw [if_pos set]
      have listed := (BitSet.mem_toList wf).mpr set
      refine (List.find?_eq_some_iff_append.mpr ?_).symm
      obtain ⟨before, behind, split⟩ := List.append_of_mem listed
      refine ⟨by simp, before, behind, split, fun other early => ?_⟩
      have ascends := BitSet.pairwise_toList wf
      rw [split] at ascends
      have less := (List.pairwise_append.mp ascends).2.2 other early index List.mem_cons_self
      rw [Bool.not_eq_true', ← Bool.not_eq_true, Axis.admits_only, beq_iff_eq]
      rintro rfl
      exact UInt32.lt_irrefl _ less
    · rw [if_neg set]
      refine (List.find?_eq_none.mpr fun other listed admitted => ?_).symm
      rw [Axis.admits_only, beq_iff_eq] at admitted
      exact set (admitted ▸ (BitSet.mem_toList wf).mp listed)

theorem searchRows_eq (wf : m.WellFormed) (start : UInt64) :
    searchRows m x y start = found x (remaining m x y (.rows start)).head? := by
  have search : m.rows.findAlong? y start (fun y row => (hit? row x 0).map (·, y)) =
      (remaining m x y (.rows start)).head?.map fun point => (point.2, point.1) :=
    PagedMap.findAlong?_eq_head? wf.rows.wf fun r row stored => by
      rw [hit?_eq (wf.rows.value r row stored).wf]
  rw [searchRows, search]
  cases (remaining m x y (.rows start)).head? <;> rfl

/-- A step yields the first remaining point and stands behind it. -/
theorem next_eq (wf : m.WellFormed) (valid : place.Valid x y) :
    place.next m x y = found x (remaining m x y place).head? := by
  cases place with
  | finished =>
    rw [next, remaining_finished]
    rfl
  | rows start => exact searchRows_eq wf start
  | row r bit =>
    obtain ⟨rfl, admitted⟩ := valid
    have search : ((m.rows.get? r).bind fun row => (hit? row .any bit).map (·, r)).or
          (m.rows.findAlong? y (r.toUInt64 + 1) fun y row => (hit? row .any 0).map (·, y)) =
        (remaining m .any y (.row r bit)).head?.map fun point => (point.2, point.1) :=
      PagedMap.resume_eq_head? wf.rows.wf (fun _ _ => UInt32.lt_asymm)
        (fun r row stored => BitSet.pairwise_toList (wf.rows.value r row stored).wf) admitted
        (fun index => bit ≤ index.toUInt64) Axis.any.admits
        (fun r row => (hit? row .any bit).map (·, r)) (fun r row => (hit? row .any 0).map (·, r))
        (fun point => (point.2, point.1))
        (fun r row stored => by rw [hit?_any_eq (wf.rows.value r row stored).wf])
        (fun r row stored => by rw [hit?_eq (wf.rows.value r row stored).wf])
    have moved : ((m.rows.get? r).bind fun row => (hit? row .any bit).map (·, r)) =
        ((m.rows.get? r).bind (hit? · .any bit)).map (·, r) := Option.map_bind.symm
    rw [moved] at search
    rw [next]
    cases inRow : (m.rows.get? r).bind (hit? · .any bit) with
    | none =>
      rw [inRow, Option.map_none, Option.none_or] at search
      dsimp only
      rw [searchRows, search]
      cases (remaining m .any y (.row r bit)).head? <;> rfl
    | some hit =>
      rw [inRow, Option.map_some, Option.some_or] at search
      obtain ⟨point, first, same⟩ := Option.map_eq_some_iff.mp search.symm
      cases same
      rw [first]
      rfl

theorem valid_behind {r : UInt32} (admitted : y.admits r = true) (index : UInt32) :
    (behind x index r).Valid x y := by
  cases x with
  | any => exact ⟨rfl, admitted⟩
  | only _ => trivial

theorem admits_row {point : UInt32 × UInt32} (ahead : place.admits x y point = true) :
    y.admits point.1 = true := by
  cases place <;> simp_all [admits]

/-- Ahead of the place behind a point is what was ahead and comes after the point. -/
theorem admits_behind (valid : place.Valid x y) {point : UInt32 × UInt32}
    (ahead : place.admits x y point = true) (other : UInt32 × UInt32) :
    (behind x point.2 point.1).admits x y other = true ↔
      place.admits x y other = true ∧ Prod.Lex (· < ·) (· < ·) point other := by
  rw [Prod.lex_def]
  cases x with
  | any =>
    cases place with
    | finished => simp [admits] at ahead
    | rows start =>
      simp only [admits, behind, succ_le_iff, Axis.admits_any] at ahead ⊢
      grind [position_le_of_lt]
    | row r bit =>
      simp only [admits, behind, succ_le_iff, Axis.admits_any] at ahead ⊢
      grind [position_le_of_lt]
  | only index =>
    cases place with
    | finished => simp [admits] at ahead
    | rows start =>
      simp only [admits, behind, succ_le_iff, Axis.admits_only] at ahead ⊢
      grind [position_le_of_lt]
    | row r bit => exact absurd valid.1 (by simp)

theorem admits_of_head? {point : UInt32 × UInt32}
    (first : (remaining m x y place).head? = some point) : place.admits x y point = true :=
  (List.mem_filter.mp (List.mem_of_head? first)).2

theorem lex_asymm (a b : UInt32 × UInt32) (less : Prod.Lex (· < ·) (· < ·) a b) :
    ¬ Prod.Lex (· < ·) (· < ·) b a :=
  PagedMap.lex_asymm (fun _ _ => UInt32.lt_asymm) a b less

/-- Behind the first remaining point the others remain. -/
theorem remaining_behind (wf : m.WellFormed) (valid : place.Valid x y) {point : UInt32 × UInt32}
    (first : (remaining m x y place).head? = some point) :
    remaining m x y (behind x point.2 point.1) = (remaining m x y place).tail :=
  Sorted.filter_eq_tail lex_asymm (pairwise_points wf) first
    (admits_behind valid (admits_of_head? first))

theorem next_fst (wf : m.WellFormed) (valid : place.Valid x y) :
    (place.next m x y).1 = (remaining m x y place).head?.map cellOf := by
  rw [next_eq wf valid]
  cases (remaining m x y place).head? <;> rfl

theorem remaining_next (wf : m.WellFormed) (valid : place.Valid x y) :
    remaining m x y (place.next m x y).2 = (remaining m x y place).tail := by
  rw [next_eq wf valid]
  cases first : (remaining m x y place).head? with
  | some point => exact remaining_behind wf valid first
  | none =>
    rw [List.head?_eq_none_iff.mp first]
    exact remaining_finished m x y

theorem valid_next (wf : m.WellFormed) (valid : place.Valid x y) :
    (place.next m x y).2.Valid x y := by
  rw [next_eq wf valid]
  cases first : (remaining m x y place).head? with
  | some point => exact valid_behind (admits_row (admits_of_head? first)) _
  | none => trivial

/-- A search of a matrix that is not written to lists what remains at its place. -/
theorem lists (wf : m.WellFormed) :
    Traversal.Lists m (fun s : Search => (remaining m s.x s.y s.place).map cellOf)
      fun s => s.place.Valid s.x s.y where
  answer s valid := by
    rw [List.head?_map]
    exact next_fst wf valid
  unchanged _ := rfl
  tail s valid := by
    rw [← List.map_tail]
    exact congrArg (List.map cellOf) (remaining_next wf valid)
  valid _ valid := valid_next wf valid

/-- A search that begins has everything ahead that matches the axes. -/
theorem admits_start (x y : Axis) (point : UInt32 × UInt32) :
    (rows y.start).admits x y point = (y.admits point.1 && x.admits point.2) := by
  rw [admits]
  cases admitted : y.admits point.1 with
  | false => rfl
  | true => simp [Axis.start_le_of_admits admitted]

/-- A search that begins has all cells that match before it. -/
theorem remaining_start (m : Matrix p) (x y : Axis) :
    remaining m x y (.rows y.start) =
      m.points.filter fun point => y.admits point.1 && x.admits point.2 :=
  List.filter_congr fun point _ => admits_start x y point

end TripleCube.Matrix.Place
