import TripleCube.Proofs.Grid.MatrixHorizon

/-! Cube searches by what is ahead of them. A search stands within the plane of the voxel that
it returned last and there as in a matrix. It leaves a plane when that has been dropped, and
within a plane that stays it leaves a row when that has been dropped. -/
namespace TripleCube.Cube

variable {p : PageSize}

namespace Place

variable {c : Cube p} {pattern : Pattern} {place : Place}

/-- A search stands within the plane of the point that it returned last. -/
def Stands : Place → Option (UInt32 × UInt32 × UInt32) → Prop
  | .plane z inner, last => ∃ point, last = some point ∧ point.1 = z ∧ inner.Stands (some point.2)
  | .planes start, last => ∀ point, last = some point → start = point.1.toUInt64 + 1
  | .finished, _ => True

theorem stands_behind (pattern : Pattern) (point : UInt32 × UInt32 × UInt32) :
    (behind pattern point).Stands (some point) :=
  ⟨point, rfl, rfl, Matrix.Place.stands_behind pattern.x point.2⟩

theorem admits_axes {point : UInt32 × UInt32 × UInt32} (valid : place.Valid pattern)
    (ahead : place.admits pattern point = true) :
    pattern.z.admits point.1 = true ∧ pattern.y.admits point.2.1 = true ∧
      pattern.x.admits point.2.2 = true := by
  refine ⟨admits_plane ahead, ?_⟩
  cases place with
  | finished => simp [admits] at ahead
  | planes start =>
    rw [admits, Bool.and_eq_true] at ahead
    exact Matrix.Place.admits_axes (valid_entrance pattern) ahead.2
  | plane z inner =>
    simp only [admits, Bool.and_eq_true, Bool.or_eq_true] at ahead
    rcases ahead.2 with here | later
    · exact Matrix.Place.admits_axes valid.2 here.2
    · exact Matrix.Place.admits_axes (valid_entrance pattern) later.2

/-- A step that yields a voxel stands behind the first remaining point. -/
theorem next_of_some (wf : c.WellFormed) (valid : place.Valid pattern) {item : Voxel}
    (answer : (place.next c pattern).1 = some item) :
    ∃ point ∈ c.points, place.admits pattern point = true ∧ voxelOf point = item ∧
      (place.next c pattern).2 = behind pattern point := by
  rw [next_eq wf valid] at answer ⊢
  cases first : (remaining c pattern place).head? with
  | none => simp [first, found] at answer
  | some point =>
    rw [first, found] at answer
    obtain ⟨member, ahead⟩ := List.mem_filter.mp (List.mem_of_head? first)
    exact ⟨point, member, ahead, Option.some.inj answer, rfl⟩

theorem next_of_none (wf : c.WellFormed) (valid : place.Valid pattern)
    (answer : (place.next c pattern).1 = none) : (place.next c pattern).2 = .finished := by
  rw [next_eq wf valid] at answer ⊢
  cases first : (remaining c pattern place).head? with
  | none => rfl
  | some point => simp [first, found] at answer

/-- Behind a point that matches the pattern is what matches it and comes after the point. -/
theorem admits_behind_iff {point : UInt32 × UInt32 × UInt32}
    (column : pattern.x.admits point.2.2 = true) (other : UInt32 × UInt32 × UInt32) :
    (behind pattern point).admits pattern other = true ↔
      (pattern.z.admits other.1 = true ∧ pattern.y.admits other.2.1 = true ∧
        pattern.x.admits other.2.2 = true) ∧
        Prod.Lex (· < ·) (Prod.Lex (· < ·) (· < ·)) point other := by
  have inPlane := Matrix.Place.admits_behind_iff (y := pattern.y) column other.2
  rw [Prod.lex_def]
  simp only [admits, behind, succ_le_iff, admits_entrance]
  grind

theorem valid_settle (c : Cube p) (valid : place.Valid pattern) :
    (place.settle c).Valid pattern := by
  cases place with
  | plane z inner =>
    rw [settle]
    split
    · exact ⟨valid.1, Matrix.Place.valid_settle _ valid.2⟩
    · trivial
  | planes start => trivial
  | finished => trivial

theorem stands_settle (c : Cube p) {last : Option (UInt32 × UInt32 × UInt32)}
    (stands : place.Stands last) : (place.settle c).Stands last := by
  cases place with
  | plane z inner =>
    obtain ⟨point, rfl, rfl, within⟩ := stands
    rw [settle]
    split
    · exact ⟨point, rfl, rfl, Matrix.Place.stands_settle _ within⟩
    · rintro _ ⟨⟩
      rfl
  | planes start => exact stands
  | finished => trivial

/-- Whether another point lies in the plane of a point, or in the row of it, and that is gone. -/
def Gone (c : Cube p) (l point : UInt32 × UInt32 × UInt32) : Prop :=
  l.1 = point.1 ∧ ((∀ x y, c.containsAt x y l.1 = false) ∨
    l.2.1 = point.2.1 ∧ ∀ x, c.containsAt x l.2.1 l.1 = false)

/-- Settling costs a search the plane or the row of its last point, if that is gone. -/
theorem admits_settle (wf : c.WellFormed) {last : Option (UInt32 × UInt32 × UInt32)}
    (valid : place.Valid pattern) (stands : place.Stands last) (point : UInt32 × UInt32 × UInt32) :
    (place.settle c).admits pattern point = true ↔ place.admits pattern point = true ∧
      ∀ l, last = some l → ¬ Gone c l point := by
  cases place with
  | finished => simp [settle, admits]
  | planes start =>
    refine ⟨fun ahead => ⟨ahead, fun l same gone => ?_⟩, And.left⟩
    have reached : start ≤ point.1.toUInt64 := by simp_all [settle, admits]
    rw [stands l same, succ_le_iff, gone.1] at reached
    exact UInt32.lt_irrefl _ reached
  | plane z inner =>
    obtain ⟨l, rfl, rfl, within⟩ := stands
    rw [settle]
    split
    · next plane stored =>
      have kept := Matrix.Place.admits_settle (wf.planes.value _ plane stored).wf valid.2 within
        point.2
      have here : ∀ x y, c.containsAt x y l.1 = plane.containsAt x y := fun x y => by
        rw [containsAt, stored]
      obtain ⟨x, y, set⟩ := (wf.planes.value _ plane stored).inhabited
      have filled : ¬ ∀ x y, plane.containsAt x y = false :=
        fun clear => Bool.false_ne_true ((clear x y).symm.trans set)
      simp only [Option.some.injEq, forall_eq'] at kept ⊢
      simp only [Gone, here, filled, false_or, admits, succ_le_iff]
      by_cases samePlane : l.1 = point.1
      · simp [samePlane, kept, and_assoc]
      · simp [samePlane]
    · next absent =>
      have clear : ∀ x y, c.containsAt x y l.1 = false := fun x y => by rw [containsAt, absent]
      simp only [admits, Option.some.injEq, forall_eq', Gone, clear, succ_le_iff]
      grind

end Place

/-- The point of a voxel. -/
def pointOf (v : Voxel) : UInt32 × UInt32 × UInt32 := (v.z.toUInt32, v.y.toUInt32, v.x.toUInt32)

@[simp] theorem voxelOf_pointOf (v : Voxel) : voxelOf (pointOf v) = v := voxelOf_words v

@[simp] theorem pointOf_voxelOf (point : UInt32 × UInt32 × UInt32) :
    pointOf (voxelOf point) = point :=
  voxelOf_injective (voxelOf_pointOf _)

/-- The order of a search among different voxels: by `z`, then by `y`, then by `x`. -/
def Precedes (a b : Voxel) : Prop :=
  a.z < b.z ∨ a.z = b.z ∧ (a.y < b.y ∨ a.y = b.y ∧ a.x < b.x)

instance : DecidableRel Precedes := fun _ _ => inferInstanceAs (Decidable (_ ∨ _))

theorem precedes_iff {a b : Voxel} (properA : a.Proper) (properB : b.Proper) :
    Precedes a b ↔
      Prod.Lex (· < ·) (Prod.Lex (· < ·) (· < ·)) (pointOf a) (pointOf b) := by
  obtain ⟨ax, ay, az⟩ := properA
  obtain ⟨bx, byy, bz⟩ := properB
  have inPlane := Matrix.precedes_iff (a := ⟨a.x, a.y⟩) (b := ⟨b.x, b.y⟩) ⟨ax, ay⟩ ⟨bx, byy⟩
  have plane := toInt32_lt_toInt32 (isCoordinate_toUInt32 az) (isCoordinate_toUInt32 bz)
  simp only [Int32.toInt32_toUInt32] at plane
  rw [Prod.lex_def]
  exact or_congr plane (and_congr toUInt32_inj.symm inPlane)

theorem irrefl_precedes (v : Voxel) : ¬ Precedes v v := by
  rintro (less | ⟨_, inPlane⟩)
  · exact Int32.lt_irrefl less
  · exact Matrix.irrefl_precedes ⟨v.x, v.y⟩ inPlane

variable {c : Cube p} {voxels : Finset Voxel}

theorem Represents.contains_iff (represents : c.Represents voxels) (v : Voxel) :
    c.contains v.x v.y v.z = .ok true ↔ v ∈ voxels := by
  rw [represents.contains_eq]
  cases refused : v.refusal? with
  | none => simp
  | some e =>
    have proper : ¬ v.Proper := fun proper => by
      simp [Voxel.refusal?_eq_none_iff.mpr proper] at refused
    simpa using fun member => proper (represents.nonneg member)

theorem Represents.containsAt_iff (represents : c.Represents voxels)
    (point : UInt32 × UInt32 × UInt32) :
    c.containsAt point.2.2 point.2.1 point.1 = true ↔
      c.contains (voxelOf point).x (voxelOf point).y (voxelOf point).z = .ok true := by
  rw [represents.contains_iff, represents.voxel]

/-- Whether a plane has no voxel. -/
def PlaneGone (c : Cube p) (z : Int32) : Prop := ∀ x y, c.contains x y z ≠ .ok true

/-- Whether a row of a plane has no voxel. -/
def RowGone (c : Cube p) (y z : Int32) : Prop := ∀ x, c.contains x y z ≠ .ok true

/-- Whether two voxels are in the same plane and that has no voxel, or in the same row of it
and that has none. -/
def Apart (c : Cube p) (l v : Voxel) : Prop :=
  l.z = v.z ∧ (c.PlaneGone l.z ∨ l.y = v.y ∧ c.RowGone l.y l.z)

/-- Cubes and their searches, by the voxels. -/
def horizon (p : PageSize) : Horizon (Cube p) Search Voxel where
  Valid c := ∃ voxels, c.Represents voxels
  Holds c v := c.contains v.x v.y v.z = .ok true
  Before := Precedes
  Wants s v := v.Proper ∧ s.pattern.z.admits (pointOf v).1 = true ∧
    s.pattern.y.admits (pointOf v).2.1 = true ∧ s.pattern.x.admits (pointOf v).2.2 = true
  Ahead s v := v.Proper ∧ s.place.admits s.pattern (pointOf v) = true
  Stands s last := s.place.Valid s.pattern ∧ s.place.Stands (last.map pointOf)
  Apart := Apart

theorem containsAt_eq_false_iff (represents : c.Represents voxels) (x y z : UInt32) :
    c.containsAt x y z = false ↔ c.contains x.toInt32 y.toInt32 z.toInt32 ≠ .ok true := by
  rw [← Bool.not_eq_true]
  exact not_congr (represents.containsAt_iff (z, y, x))

theorem apart_iff (represents : c.Represents voxels) (l v : Voxel) :
    c.Apart l v ↔ Place.Gone c (pointOf l) (pointOf v) := by
  simp only [Place.Gone, containsAt_eq_false_iff represents, pointOf, Int32.toInt32_toUInt32]
  refine and_congr toUInt32_inj.symm (or_congr ?_ (and_congr toUInt32_inj.symm forall_toInt32.symm))
  exact (forall_congr' fun x => forall_toInt32.symm).trans forall_toInt32.symm

theorem mem_remaining (represents : c.Represents voxels) (s : Search) (v : Voxel) :
    v ∈ (s.place.remaining c s.pattern).map voxelOf ↔
      (horizon p).Holds c v ∧ (horizon p).Ahead s v := by
  rw [List.mem_map]
  constructor
  · rintro ⟨point, listed, rfl⟩
    obtain ⟨member, ahead⟩ := List.mem_filter.mp listed
    have holds := (represents.containsAt_iff point).mp ((mem_points represents.wf).mp member)
    exact ⟨holds, represents.nonneg ((represents.contains_iff _).mp holds),
      (pointOf_voxelOf point).symm ▸ ahead⟩
  · rintro ⟨holds, -, ahead⟩
    rw [← voxelOf_pointOf v] at holds
    have set := (represents.containsAt_iff (pointOf v)).mpr holds
    exact ⟨pointOf v, List.mem_filter.mpr ⟨(mem_points represents.wf).mpr set, ahead⟩,
      voxelOf_pointOf v⟩

theorem hit (represents : c.Represents voxels) {s : Search} {last : Option Voxel} {item : Voxel}
    (stands : (horizon p).Stands s last) (answer : (Traversal.next c s).1 = some item) :
    (horizon p).Hit c s item (Traversal.next c s).2.2 := by
  obtain ⟨point, member, ahead, rfl, moved⟩ := Place.next_of_some represents.wf stands.1 answer
  have now : (Traversal.next c s).2.2 = { s with place := Place.behind s.pattern point } :=
    congrArg (fun place => { s with place }) moved
  have axes := Place.admits_axes stands.1 ahead
  have proper : (voxelOf point).Proper :=
    represents.nonneg ((represents.voxel point).mp ((mem_points represents.wf).mp member))
  have order : ∀ v : Voxel, v.Proper → (Precedes (voxelOf point) v ↔
      Prod.Lex (· < ·) (Prod.Lex (· < ·) (· < ·)) point (pointOf v)) :=
    fun v properV => by rw [precedes_iff proper properV, pointOf_voxelOf]
  refine .of_lists (Place.lists represents.wf) (mem_remaining represents) stands.1 answer ?_
    (fun v => ?_) fun v later => ?_
  · rw [now]
    refine ⟨Place.valid_behind ahead axes.2.1, ?_⟩
    rw [Option.map_some, pointOf_voxelOf]
    exact Place.stands_behind s.pattern point
  · rw [now]
    refine (and_congr_right fun properV => ?_).trans and_assoc.symm
    exact (Place.admits_behind_iff axes.2.2 _).trans (and_congr_right' (order v properV).symm)
  · rw [now] at later
    exact ⟨later.1, ((Place.admits_behind stands.1 ahead _).mp later.2).1⟩

theorem miss (represents : c.Represents voxels) {s : Search} {last : Option Voxel}
    (stands : (horizon p).Stands s last) (answer : (Traversal.next c s).1 = none) :
    (horizon p).Miss c s last (Traversal.next c s).2.2 := by
  have now : (Traversal.next c s).2.2 = { s with place := .finished } :=
    congrArg (fun place => { s with place })
      (Place.next_of_none represents.wf stands.1 answer)
  refine .of_lists (Place.lists represents.wf) (mem_remaining represents) stands.1 answer ?_ ?_
  · rw [now]
    exact ⟨trivial, trivial⟩
  · rw [now]
    exact fun v isAhead => Bool.false_ne_true isAhead.2

theorem ahead_settle (represents : c.Represents voxels) {s : Search} {last : Option Voxel}
    (stands : (horizon p).Stands s last) (v : Voxel) :
    (horizon p).Ahead (Traversal.settle c s) v ↔
      (horizon p).Ahead s v ∧ ∀ l, last = some l → ¬ c.Apart l v := by
  have settled := Place.admits_settle represents.wf stands.1 stands.2 (pointOf v)
  simp only [Option.map_eq_some_iff, forall_exists_index, and_imp, forall_apply_eq_imp_iff₂]
    at settled
  rw [forall₂_congr fun l _ => not_congr (apart_iff represents l v)]
  exact (and_congr_right' settled).trans and_assoc.symm

theorem lawful : (horizon p).Lawful where
  irrefl := irrefl_precedes
  unchanged _ _ := rfl
  write c c' write changed := by
    rintro ⟨voxels, represents⟩ written
    exact ⟨_, apply_of_change written ▸ represents.apply write⟩
  wanted s last v stands ahead := ⟨ahead.1, Place.admits_axes stands.1 ahead.2⟩
  wants_next _ _ _ := Iff.rfl
  wants_settle _ _ _ := Iff.rfl
  hit c s last item valid stands answer := hit valid.choose_spec stands answer
  miss c s last valid stands answer := miss valid.choose_spec stands answer
  settles c s last _ stands :=
    ⟨Place.valid_settle c stands.1, Place.stands_settle c stands.2⟩
  ahead_settle c s last valid stands v := ahead_settle valid.choose_spec stands v
  not_apart_left c l v _ holds apart := by
    rcases apart.2 with plane | row
    · exact plane l.x l.y holds
    · exact row.2 l.x holds
  not_apart_right c l v _ holds apart := by
    obtain ⟨samePlane, plane | ⟨sameRow, row⟩⟩ := apart
    · exact plane v.x v.y (samePlane ▸ holds)
    · exact row v.x (samePlane ▸ sameRow ▸ holds)

end TripleCube.Cube
