import TripleCube.Proofs.Grid.Write
import TripleCube.Proofs.Horizon

/-! Matrix searches by what is ahead of them. A search stands within the row of the cell that
it returned last, or before the rows behind it. It leaves a row only when that has been
dropped, and then it leaves all cells of that row, present or to come. -/
namespace TripleCube.Matrix

variable {p : PageSize}

/-- A row is stored exactly while it has a cell. -/
theorem contains_rows_iff {m : Matrix p} (wf : m.WellFormed) (r : UInt32) :
    m.rows.contains r = true ↔ ∃ index, m.containsAt index r = true := by
  rw [PagedMap.contains, Option.isSome_iff_exists]
  constructor
  · rintro ⟨row, stored⟩
    obtain ⟨index, set⟩ := (wf.rows.value r row stored).inhabited
    exact ⟨index, containsAt_eq_true.mpr ⟨row, stored, set⟩⟩
  · rintro ⟨index, set⟩
    obtain ⟨row, stored, _⟩ := containsAt_eq_true.mp set
    exact ⟨row, stored⟩

namespace Place

variable {m : Matrix p} {x y : Axis} {place : Place}

/-- A search stands within the row of the point that it returned last, or right behind it. -/
def Stands : Place → Option (UInt32 × UInt32) → Prop
  | .row r _, last => ∃ point, last = some point ∧ point.1 = r
  | .rows start, last => ∀ point, last = some point → start = point.1.toUInt64 + 1
  | .finished, _ => True

theorem stands_behind (x : Axis) (point : UInt32 × UInt32) :
    (behind x point.2 point.1).Stands (some point) := by
  cases x with
  | any => exact ⟨point, rfl, rfl⟩
  | only _ =>
    rintro _ ⟨⟩
    rfl

theorem admits_axes {point : UInt32 × UInt32} (valid : place.Valid x y)
    (ahead : place.admits x y point = true) :
    y.admits point.1 = true ∧ x.admits point.2 = true := by
  refine ⟨admits_row ahead, ?_⟩
  cases place with
  | finished => simp [admits] at ahead
  | rows start => simp_all [admits]
  | row r bit =>
    rw [valid.1]
    rfl

/-- A step that yields a cell stands behind the first remaining point. -/
theorem next_of_some (wf : m.WellFormed) (valid : place.Valid x y) {item : Cell}
    (answer : (place.next m x y).1 = some item) :
    ∃ point ∈ m.points, place.admits x y point = true ∧ cellOf point = item ∧
      (place.next m x y).2 = behind x point.2 point.1 := by
  rw [next_eq wf valid] at answer ⊢
  cases first : (remaining m x y place).head? with
  | none => simp [first, found] at answer
  | some point =>
    rw [first, found] at answer
    obtain ⟨member, ahead⟩ := List.mem_filter.mp (List.mem_of_head? first)
    exact ⟨point, member, ahead, Option.some.inj answer, rfl⟩

theorem next_of_none (wf : m.WellFormed) (valid : place.Valid x y)
    (answer : (place.next m x y).1 = none) : (place.next m x y).2 = .finished := by
  rw [next_eq wf valid] at answer ⊢
  cases first : (remaining m x y place).head? with
  | none => rfl
  | some point => simp [first, found] at answer

/-- Behind a point that matches the axes is what matches them and comes after the point. -/
theorem admits_behind_iff {point : UInt32 × UInt32} (column : x.admits point.2 = true)
    (other : UInt32 × UInt32) :
    (behind x point.2 point.1).admits x y other = true ↔
      (y.admits other.1 = true ∧ x.admits other.2 = true) ∧
        Prod.Lex (· < ·) (· < ·) point other := by
  rw [Prod.lex_def]
  cases x with
  | any =>
    simp only [admits, behind, succ_le_iff, Axis.admits_any]
    grind
  | only index =>
    have single : ∀ other, (Axis.only index).admits other = true → ¬ point.2 < other := by
      intro other same less
      rw [Axis.admits_only, beq_iff_eq] at column same
      exact UInt32.lt_irrefl _ (column ▸ same ▸ less)
    simp only [admits, behind, succ_le_iff]
    grind

theorem valid_settle (m : Matrix p) (valid : place.Valid x y) : (place.settle m).Valid x y := by
  cases place with
  | row r bit =>
    rw [settle]
    split
    · exact valid
    · trivial
  | rows start => trivial
  | finished => trivial

theorem stands_settle (m : Matrix p) {last : Option (UInt32 × UInt32)}
    (stands : place.Stands last) : (place.settle m).Stands last := by
  cases place with
  | row r bit =>
    rw [settle]
    split
    · exact stands
    · obtain ⟨point, rfl, rfl⟩ := stands
      rintro _ ⟨⟩
      rfl
  | rows start => exact stands
  | finished => trivial

/-- Settling costs a search the row of its last point, if that row is gone. -/
theorem admits_settle (wf : m.WellFormed) {last : Option (UInt32 × UInt32)}
    (valid : place.Valid x y) (stands : place.Stands last) (point : UInt32 × UInt32) :
    (place.settle m).admits x y point = true ↔ place.admits x y point = true ∧
      ∀ l, last = some l → ¬ (l.1 = point.1 ∧ ∀ index, m.containsAt index l.1 = false) := by
  cases place with
  | finished => simp [settle, admits]
  | rows start =>
    refine ⟨fun ahead => ⟨ahead, fun l same gone => ?_⟩, And.left⟩
    have reached : start ≤ point.1.toUInt64 := by simp_all [settle, admits]
    rw [stands l same, succ_le_iff, gone.1] at reached
    exact UInt32.lt_irrefl _ reached
  | row r bit =>
    obtain ⟨l, rfl, rfl⟩ := stands
    obtain ⟨rfl, _⟩ := valid
    have present := contains_rows_iff wf l.1
    rw [settle]
    split
    · next stored =>
      obtain ⟨index, set⟩ := present.mp stored
      refine ⟨fun ahead => ⟨ahead, ?_⟩, And.left⟩
      rintro _ ⟨⟩ gone
      exact Bool.false_ne_true ((gone.2 index).symm.trans set)
    · next absent =>
      have clear : ∀ index, m.containsAt index l.1 = false := fun index =>
        Bool.eq_false_iff.mpr fun set => absent (present.mpr ⟨index, set⟩)
      simp only [admits, succ_le_iff, Axis.admits_any, Option.some.injEq, forall_eq']
      grind

end Place

/-- The point of a cell. -/
def pointOf (c : Cell) : UInt32 × UInt32 := (c.y.toUInt32, c.x.toUInt32)

@[simp] theorem cellOf_pointOf (c : Cell) : cellOf (pointOf c) = c := cellOf_words c

@[simp] theorem pointOf_cellOf (point : UInt32 × UInt32) : pointOf (cellOf point) = point :=
  cellOf_injective (cellOf_pointOf _)

/-- The order of a search among different cells: by `y`, then by `x`. -/
def Precedes (a b : Cell) : Prop := a.y < b.y ∨ a.y = b.y ∧ a.x < b.x

instance : DecidableRel Precedes := fun _ _ => inferInstanceAs (Decidable (_ ∨ _))

theorem precedes_iff {a b : Cell} (properA : a.Proper) (properB : b.Proper) :
    Precedes a b ↔ Prod.Lex (· < ·) (· < ·) (pointOf a) (pointOf b) := by
  have row := toInt32_lt_toInt32 (isCoordinate_toUInt32 properA.2) (isCoordinate_toUInt32 properB.2)
  have column :=
    toInt32_lt_toInt32 (isCoordinate_toUInt32 properA.1) (isCoordinate_toUInt32 properB.1)
  simp only [Int32.toInt32_toUInt32] at row column
  rw [Precedes, Prod.lex_def, pointOf, pointOf, row, column]
  exact or_congr_right (and_congr_left' toUInt32_inj.symm)

theorem irrefl_precedes (c : Cell) : ¬ Precedes c c := by
  rintro (less | ⟨_, less⟩)
  · exact Int32.lt_irrefl less
  · exact Int32.lt_irrefl less

variable {m : Matrix p} {cells : Finset Cell}

theorem Represents.contains_iff (represents : m.Represents cells) (c : Cell) :
    m.contains c.x c.y = .ok true ↔ c ∈ cells := by
  rw [represents.contains_eq]
  cases refused : c.refusal? with
  | none => simp
  | some e =>
    have proper : ¬ c.Proper := fun proper => by simp [Cell.refusal?_eq_none_iff.mpr proper] at refused
    simpa using fun member => proper (represents.nonneg member)

theorem Represents.containsAt_iff (represents : m.Represents cells) (point : UInt32 × UInt32) :
    m.containsAt point.2 point.1 = true ↔
      m.contains (cellOf point).x (cellOf point).y = .ok true := by
  rw [represents.contains_iff, represents.cell]

/-- Whether a row has no cell. -/
def RowGone (m : Matrix p) (y : Int32) : Prop := ∀ x, m.contains x y ≠ .ok true

/-- Whether two cells are in the same row and that has no cell. -/
def Apart (m : Matrix p) (l v : Cell) : Prop := l.y = v.y ∧ m.RowGone l.y

/-- Matrices and their searches, by the cells. -/
def horizon (p : PageSize) : Horizon (Matrix p) Search Cell where
  Valid m := ∃ cells, m.Represents cells
  Holds m c := m.contains c.x c.y = .ok true
  Before := Precedes
  Wants s c := c.Proper ∧ s.y.admits (pointOf c).1 = true ∧ s.x.admits (pointOf c).2 = true
  Ahead s c := c.Proper ∧ s.place.admits s.x s.y (pointOf c) = true
  Stands s last := s.place.Valid s.x s.y ∧ s.place.Stands (last.map pointOf)
  Apart := Apart

theorem containsAt_eq_false_iff (represents : m.Represents cells) (x y : UInt32) :
    m.containsAt x y = false ↔ m.contains x.toInt32 y.toInt32 ≠ .ok true := by
  rw [← Bool.not_eq_true]
  exact not_congr (represents.containsAt_iff (y, x))

theorem apart_iff (represents : m.Represents cells) (l v : Cell) :
    m.Apart l v ↔ (pointOf l).1 = (pointOf v).1 ∧
      ∀ index, m.containsAt index (pointOf l).1 = false := by
  refine and_congr toUInt32_inj.symm ?_
  simp only [RowGone, containsAt_eq_false_iff represents, pointOf, Int32.toInt32_toUInt32]
  exact forall_toInt32.symm

theorem mem_remaining (represents : m.Represents cells) (s : Search) (c : Cell) :
    c ∈ (s.place.remaining m s.x s.y).map cellOf ↔
      (horizon p).Holds m c ∧ (horizon p).Ahead s c := by
  rw [List.mem_map]
  constructor
  · rintro ⟨point, listed, rfl⟩
    obtain ⟨member, ahead⟩ := List.mem_filter.mp listed
    have holds := (represents.containsAt_iff point).mp ((mem_points represents.wf).mp member)
    exact ⟨holds, represents.nonneg ((represents.contains_iff _).mp holds),
      (pointOf_cellOf point).symm ▸ ahead⟩
  · rintro ⟨holds, -, ahead⟩
    rw [← cellOf_pointOf c] at holds
    have set := (represents.containsAt_iff (pointOf c)).mpr holds
    exact ⟨pointOf c, List.mem_filter.mpr ⟨(mem_points represents.wf).mpr set, ahead⟩,
      cellOf_pointOf c⟩

theorem hit (represents : m.Represents cells) {s : Search} {last : Option Cell} {item : Cell}
    (stands : (horizon p).Stands s last) (answer : (Traversal.next m s).1 = some item) :
    (horizon p).Hit m s item (Traversal.next m s).2.2 := by
  obtain ⟨point, member, ahead, rfl, moved⟩ := Place.next_of_some represents.wf stands.1 answer
  have now : (Traversal.next m s).2.2 = { s with place := .behind s.x point.2 point.1 } :=
    congrArg (fun place => { s with place }) moved
  have axes := Place.admits_axes stands.1 ahead
  have proper : (cellOf point).Proper :=
    represents.nonneg ((represents.cell point).mp ((mem_points represents.wf).mp member))
  have order : ∀ v : Cell, v.Proper →
      (Precedes (cellOf point) v ↔ Prod.Lex (· < ·) (· < ·) point (pointOf v)) :=
    fun v properV => by rw [precedes_iff proper properV, pointOf_cellOf]
  refine .of_lists (Place.lists represents.wf) (mem_remaining represents) stands.1 answer ?_
    (fun v => ?_) fun v later => ?_
  · rw [now]
    refine ⟨Place.valid_behind axes.1 _, ?_⟩
    rw [Option.map_some, pointOf_cellOf]
    exact Place.stands_behind s.x point
  · rw [now]
    refine (and_congr_right fun properV => ?_).trans and_assoc.symm
    exact (Place.admits_behind_iff axes.2 _).trans (and_congr_right' (order v properV).symm)
  · rw [now] at later
    exact ⟨later.1, ((Place.admits_behind stands.1 ahead _).mp later.2).1⟩

theorem miss (represents : m.Represents cells) {s : Search} {last : Option Cell}
    (stands : (horizon p).Stands s last) (answer : (Traversal.next m s).1 = none) :
    (horizon p).Miss m s last (Traversal.next m s).2.2 := by
  have now : (Traversal.next m s).2.2 = { s with place := .finished } :=
    congrArg (fun place => { s with place })
      (Place.next_of_none represents.wf stands.1 answer)
  refine .of_lists (Place.lists represents.wf) (mem_remaining represents) stands.1 answer ?_ ?_
  · rw [now]
    exact ⟨trivial, trivial⟩
  · rw [now]
    exact fun v isAhead => Bool.false_ne_true isAhead.2

theorem ahead_settle (represents : m.Represents cells) {s : Search} {last : Option Cell}
    (stands : (horizon p).Stands s last) (c : Cell) :
    (horizon p).Ahead (Traversal.settle m s) c ↔
      (horizon p).Ahead s c ∧ ∀ l, last = some l → ¬ m.Apart l c := by
  have settled := Place.admits_settle represents.wf stands.1 stands.2 (pointOf c)
  simp only [Option.map_eq_some_iff, forall_exists_index, and_imp, forall_apply_eq_imp_iff₂]
    at settled
  rw [forall₂_congr fun l _ => not_congr (apart_iff represents l c)]
  exact (and_congr_right' settled).trans and_assoc.symm

theorem lawful : (horizon p).Lawful where
  irrefl := irrefl_precedes
  unchanged _ _ := rfl
  write m m' write changed := by
    rintro ⟨cells, represents⟩ written
    exact ⟨_, apply_of_change written ▸ represents.apply write⟩
  wanted s last c stands ahead := ⟨ahead.1, Place.admits_axes stands.1 ahead.2⟩
  wants_next _ _ _ := Iff.rfl
  wants_settle _ _ _ := Iff.rfl
  hit m s last item valid stands answer := hit valid.choose_spec stands answer
  miss m s last valid stands answer := miss valid.choose_spec stands answer
  settles m s last _ stands :=
    ⟨Place.valid_settle m stands.1, Place.stands_settle m stands.2⟩
  ahead_settle m s last valid stands c := ahead_settle valid.choose_spec stands c
  not_apart_left m l v _ holds apart := apart.2 l.x holds
  not_apart_right m l v _ holds apart := apart.2 v.x (apart.1 ▸ holds)

end TripleCube.Matrix
