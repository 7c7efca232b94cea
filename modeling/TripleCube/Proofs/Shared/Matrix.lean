import TripleCube.Proofs.Grid.Write
import TripleCube.Proofs.Shared.Search
import TripleCube.Proofs.Simulation
import TripleCube.Shared.Matrix

/-! Matrices with shared rows against matrices as values. The same cells are set in both, and a
search that holds a row answers as one that keeps its place and is settled by every write. -/
namespace TripleCube

namespace Matrix.Place

variable {p : PageSize} {m : Matrix p}

/-- The places of a search along the rows. -/
def spots : Spots UInt64 Place := ⟨.row, .rows, .finished⟩

/-- Taking up the next row, and then looking into it, comes to a search of the rows. -/
theorem searchRows_of_next (wf : m.rows.WellFormed) {x y : Axis} {start : UInt64} {key : UInt32}
    {row : BitSet p} (next : m.rows.nextAlong? y start = some (key, row)) :
    searchRows m x y start = (Place.row key 0).next m x y := by
  have stored := (PagedMap.nextAlong?_eq_some wf next).1
  rw [Place.next, searchRows, PagedMap.findAlong?_step wf, next, stored, Option.bind_some,
    Option.bind_some]
  cases hit? row x 0 <;> rfl

theorem searchRows_of_none (wf : m.rows.WellFormed) {x y : Axis} {start : UInt64}
    (next : m.rows.nextAlong? y start = none) : searchRows m x y start = (none, .finished) := by
  rw [searchRows, PagedMap.findAlong?_step wf, next]
  rfl

/-- A look into a row, by the first cell that it admits from a position on. -/
theorem look_eq (row : BitSet p) (x : Axis) (y : UInt32) (bit : UInt64) :
    (SharedMatrix.rowProbe x).look y row bit = match hit? row x bit with
      | some found => (some ⟨found.toInt32, y.toInt32⟩, match x with
        | .any => some (found.toUInt64 + 1)
        | .only _ => none)
      | none => (none, none) := by
  cases x with
  | only index =>
    simp only [hit?, SharedMatrix.rowProbe]
    by_cases set : row.contains index = true <;> simp [set]
  | any =>
    rw [hit?]
    cases found : row.next? bit <;> simp only [SharedMatrix.rowProbe, found]

/-- The search of the rows in one go is the loop that takes up row after row. -/
theorem walk (wf : m.rows.WellFormed) (x y : Axis) :
    spots.Walk (SharedMatrix.rowProbe x) m.rows y (Place.next m x y) where
  finished := rfl
  ends _ := searchRows_of_none wf
  enters _ _ _ := searchRows_of_next wf
  hits key row bit item rest stored looked := by
    change (Place.row key bit).next m x y = _
    rw [Place.next, stored, Option.bind_some]
    rw [look_eq] at looked
    cases found : hit? row x bit with
    | none => simp [found] at looked
    | some index =>
      rw [found] at looked
      cases looked
      cases x <;> rfl
  leaves key row bit stored looked := by
    change (Place.row key bit).next m x y = searchRows m x y (key.toUInt64 + 1)
    rw [Place.next, stored, Option.bind_some]
    rw [look_eq] at looked
    cases found : hit? row x bit with
    | none => rfl
    | some index => simp [found] at looked

theorem settles (m : Matrix p) : spots.Settles m.rows (fun _ bit => bit) (settle m) where
  finished := rfl
  before _ := rfl
  within key row bit stored := by
    change (Place.row key bit).settle m = .row key bit
    rw [settle, PagedMap.contains, stored]
    rfl
  gone key bit free := by
    change (Place.row key bit).settle m = .rows (key.toUInt64 + 1)
    rw [settle, PagedMap.contains, free]
    rfl

end Matrix.Place

namespace SharedMatrix

variable {p : PageSize} {s s' : SharedMatrix p} {m m' : Matrix p} {x y : Axis}

theorem look_empty {row : BitSet p} (vacant : row.isEmpty = true) (x : Axis) (y : UInt32)
    (bit : UInt64) : ((rowProbe x).look y row bit).1 = none := by
  obtain rfl : row = .empty := congrArg BitSet.mk (List.isEmpty_iff.mp vacant)
  cases x <;> rfl

/-- A row is searched from the same position on, whether it is shared or not. -/
theorem follows_row (x : Axis) :
    Holder.Follows (rowProbe x : Probe (BitSet p) UInt64 Cell) (rowProbe x) BitSet.isEmpty
      (fun _ bit => bit) (· = ·) (fun _ _ => True) fun _ bit place => bit = place where
  still _ := trivial
  first _ := rfl
  look := by
    rintro row _ bit _ key rfl rfl
    refine ⟨rfl, ?_⟩
    cases ((rowProbe x).look key row bit).2 with
    | none => exact .none
    | some rest => exact .some rfl
  settled same _ _ := same
  emptied same _ _ := ⟨_, same⟩
  idle key _ vacant := look_empty vacant x key _

/-- The same rows under the same keys. -/
def Shows (s : SharedMatrix p) (m : Matrix p) : Prop := Holder.Shows (· = ·) s.rows m.rows

/-- What a write comes to for the rows. -/
def RowsChange (s s' : SharedMatrix p) : Prop :=
  Holder.Change (fun _ _ => True) BitSet.isEmpty s.rows s'.rows

/-- A cursor with an `x` and a `y`, and the place that it stands for. -/
structure Stands (x y : Axis) (s : SharedMatrix p) (c : Cursor) (place : Matrix.Place) : Prop where
  column : c.x = x
  row : c.rows.axis = y
  place : Holder.Stands BitSet.isEmpty (fun _ bit place => bit = place) Matrix.Place.spots
    s.rows c.rows place

theorem Stands.next (shows : s.Shows m) {c : Cursor} {place : Matrix.Place}
    (stands : Stands x y s c place) :
    (c.next s).1 = (place.next m x y).1 ∧ Stands x y s (c.next s).2 (place.next m x y).2 := by
  obtain ⟨rfl, rfl, stands⟩ := stands
  obtain ⟨answer, still⟩ := stands.next (follows_row c.x) shows
    (Matrix.Place.walk shows.wellFormed c.x c.rows.axis)
  exact ⟨answer, rfl, c.rows.axis_next _ _, still⟩

/-- Between two rows, the loop over rows and cells yields what a search of the rows in one go
yields. -/
theorem next_eq_searchRows (shows : s.Shows m) {c : Cursor} (going : c.rows.done = false)
    (between : c.rows.held = none) :
    (c.next s).1 = (Matrix.Place.searchRows m c.x c.rows.axis c.rows.start).1 :=
  (Stands.next shows ⟨rfl, rfl, .between going between⟩).1

/-- A cursor that no write touches stands for the place that every write settles. -/
theorem Stands.change (shows : s'.Shows m') (change : s.RowsChange s') {c : Cursor}
    {place : Matrix.Place} (stands : Stands x y s c place) :
    Stands x y s' c (place.settle m') :=
  ⟨stands.column, stands.row,
    stands.place.change (follows_row x) shows (Matrix.Place.settles m') change⟩

theorem stands_opening (s : SharedMatrix p) (x y : Axis) (done : Bool) :
    Stands x y s (.opening x y done) (if done then .finished else .rows y.start) :=
  ⟨rfl, rfl, Holder.stands_opening y done⟩

theorem shows_empty : (empty : SharedMatrix p).Shows .empty := Holder.shows_empty _

theorem Shows.setAt (shows : s.Shows m) (x y : UInt32) :
    (s.setAt x y).1 = (m.setAt x y).1 ∧ (s.setAt x y).2.Shows (m.setAt x y).2 := by
  have clean : (.empty : BitSet p) = .empty := rfl
  refine Holder.Shows.setIn shows y (fun row => row.set x) (fun row => row.set x) clean ?_ ?_
  · rw [BitSet.set, BitSet.assign_fst BitSet.wellFormed_empty]
    rfl
  · rintro row _ rfl
    exact ⟨rfl, rfl⟩

theorem Shows.clearAt (shows : s.Shows m) (x y : UInt32) :
    (s.clearAt x y).1 = (m.clearAt x y).1 ∧ (s.clearAt x y).2.Shows (m.clearAt x y).2 := by
  rw [SharedMatrix.clearAt, Matrix.clearAt]
  cases held : s.rows.handle? y with
  | none =>
    rw [(shows.get?_eq_none_iff y).mpr held, Holder.clearIn, held]
    exact ⟨rfl, shows⟩
  | some handle =>
    obtain ⟨row, stored, -⟩ := shows.of_some held
    rw [stored]
    refine Holder.Shows.clearIn shows held stored (fun row => row.clear x) (fun row => row.clear x)
      ?_ ?_
    · rintro row _ rfl
      exact ⟨rfl, rfl⟩
    · rintro row _ rfl
      rfl

theorem Shows.containsAt (shows : s.Shows m) (x y : UInt32) :
    s.containsAt x y = m.containsAt x y := by
  rw [SharedMatrix.containsAt, Matrix.containsAt]
  cases held : s.rows.handle? y with
  | none => rw [(shows.get?_eq_none_iff y).mpr held]
  | some handle =>
    obtain ⟨row, stored, rfl⟩ := shows.of_some held
    rw [stored]

theorem Shows.isEmpty (shows : s.Shows m) : s.isEmpty = m.isEmpty := Holder.Shows.isEmpty shows

theorem rowsChange_setAt (s : SharedMatrix p) (x y : UInt32) : s.RowsChange (s.setAt x y).2 :=
  Holder.change_setIn s.rows y .empty (fun row => row.set x) fun _ => trivial

theorem rowsChange_clearAt (s : SharedMatrix p) (x y : UInt32) : s.RowsChange (s.clearAt x y).2 :=
  Holder.change_clearIn s.rows y (fun row => row.clear x) fun _ => trivial

/-- A call that changes a matrix, with its answer. -/
def change (s : SharedMatrix p) : Matrix.Write → Except Error (Bool × SharedMatrix p)
  | .set x y => s.set x y
  | .clear x y => s.clear x y

instance : Searchable (SharedMatrix p) Cursor Matrix.Write (Int32 × Int32) where
  write := change
  search s pattern := s.search pattern.1 pattern.2

theorem rowsChange {write : Matrix.Write} {changed : Bool}
    (outcome : s.change write = .ok (changed, s')) : s.RowsChange s' := by
  cases write with
  | set x y =>
    rw [change, set, Matrix.locate_eq] at outcome
    split at outcome
    · cases outcome
    · cases outcome
      exact rowsChange_setAt s _ _
  | clear x y =>
    rw [change, clear, Matrix.locate_eq] at outcome
    split at outcome
    · cases outcome
    · cases outcome
      exact rowsChange_clearAt s _ _

/-- What a cursor has to do with a search by places. -/
def Matched (s : SharedMatrix p) (c : Cursor) (search : Matrix.Search) : Prop :=
  Stands search.x search.y s c search.place

/-- A write answers as on values, and every cursor stands for the settled place. -/
theorem Shows.change (shows : s.Shows m) (write : Matrix.Write) :
    Live.Writes Shows Matched s (s.change write) (m.change write) := by
  have settles : ∀ {s' : SharedMatrix p} {m' : Matrix p}, s'.Shows m' → s.RowsChange s' →
      ∀ {c : Cursor} {search : Matrix.Search}, Matched s c search →
        Matched s' c (Traversal.settle m' search) :=
    fun shows' change _ _ matched => Stands.change shows' change matched
  cases write with
  | set x y =>
    rw [SharedMatrix.change, Matrix.change, SharedMatrix.set, Matrix.set, Matrix.locate_eq,
      Matrix.locate_eq]
    split
    · exact .error _
    · obtain ⟨answer, shows'⟩ := shows.setAt x.toUInt32 y.toUInt32
      exact .of_pair answer shows' (settles shows' (rowsChange_setAt s _ _))
  | clear x y =>
    rw [SharedMatrix.change, Matrix.change, SharedMatrix.clear, Matrix.clear, Matrix.locate_eq,
      Matrix.locate_eq]
    split
    · exact .error _
    · obtain ⟨answer, shows'⟩ := shows.clearAt x.toUInt32 y.toUInt32
      exact .of_pair answer shows' (settles shows' (rowsChange_clearAt s _ _))

theorem Shows.search (shows : s.Shows m) (x y : Int32) :
    Session.Opens (Matched s) (s.search x y) (m.search x y) := by
  rw [SharedMatrix.search, Matrix.search]
  cases Axis.pattern .x x with
  | error e => exact .error e
  | ok x =>
    cases Axis.pattern .y y with
    | error e => exact .error e
    | ok y =>
      refine .ok ?_
      rw [← shows.isEmpty]
      exact stands_opening s x y s.isEmpty

theorem simulates : Live.Simulates (Shows (p := p)) Matched where
  write := Shows.change
  search shows pattern := shows.search pattern.1 pattern.2
  unchanged _ _ := rfl
  next shows matched := ⟨(Stands.next shows matched).1, shows, (Stands.next shows matched).2⟩

theorem Shows.contains (shows : s.Shows m) (x y : Int32) : s.contains x y = m.contains x y := by
  rw [SharedMatrix.contains, Matrix.contains, Matrix.locate_eq, Matrix.locate_eq]
  split
  · rfl
  · exact congrArg Except.ok (shows.containsAt _ _)

/-- The matrix that calls leave, with the searches that they leave open. -/
def history (p : PageSize) (calls : List (Live.Call Matrix.Write (Int32 × Int32))) :
    Live (SharedMatrix p) Cursor :=
  Live.after calls (.of .empty)

theorem linked_history (p : PageSize) (calls : List (Live.Call Matrix.Write (Int32 × Int32))) :
    Live.Linked Shows Matched (history p calls) (Live.after calls (.of .empty)) :=
  (simulates.run (Session.paired_of shows_empty) calls).2

/-- Every history is answered as on values. -/
theorem answers_eq (p : PageSize) (calls : List (Live.Call Matrix.Write (Int32 × Int32))) :
    (Calls.run Live.step calls (Live.of (empty : SharedMatrix p) : Live _ Cursor)).1 =
      (Calls.run Live.step calls (Live.of (.empty : Matrix p) : Live _ Matrix.Search)).1 :=
  (simulates.run (Session.paired_of shows_empty) calls).1

/-- A row that a search holds is held under its `y` too, or it was dropped. Then it is empty for
good, and no row that comes under that `y` later is the one that the search holds. -/
theorem held_row {p : PageSize} {calls : List (Live.Call Matrix.Write (Int32 × Int32))}
    {number : Int} {c : Cursor} (standing : (history p calls).cursors.find? number = some c)
    (going : c.rows.done = false) {y : UInt32} {handle : Handle} {bit : UInt64}
    (holds : c.rows.held = some (y, handle, bit)) :
    (history p calls).subject.rows.handle? y = some handle ∨
      ∀ later : List (Live.Call Matrix.Write (Int32 × Int32)),
        Holder.Dropped BitSet.isEmpty (Live.after later (history p calls)).subject.rows handle := by
  obtain ⟨search, matched⟩ := (linked_history p calls).exists_matched standing
  refine (matched.place.linked_or_dropped going holds).imp_right fun dropped later => ?_
  exact Live.subject_after (fun _ _ => rfl)
    (fun s : SharedMatrix p => Holder.Dropped BitSet.isEmpty s.rows handle)
    (fun _ _ _ _ dropped outcome => dropped.change (rowsChange outcome)) later dropped

end SharedMatrix

end TripleCube
