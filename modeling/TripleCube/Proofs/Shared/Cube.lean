import TripleCube.Grid.CubeSearch
import TripleCube.Proofs.Shared.Matrix
import TripleCube.Shared.Cube

/-! Cubes with shared planes against cubes as values. A search holds a plane, and a row of that
plane; it answers as one that keeps its place and is settled by every write. -/
namespace TripleCube

namespace Matrix.Place

variable {p : PageSize}

theorem next_empty (x y : Axis) (place : Place) : (place.next (.empty : Matrix p) x y).1 = none := by
  have none : ∀ start, searchRows (.empty : Matrix p) x y start = (none, .finished) :=
    fun start => searchRows_of_none PagedMap.wellFormed_empty (PagedMap.nextAlong?_empty y start)
  cases place with
  | finished => rfl
  | rows start => rw [Place.next, none]
  | row y bit =>
    change (searchRows (.empty : Matrix p) x _ (y.toUInt64 + 1)).1 = _
    rw [none]

end Matrix.Place

namespace Cube.Place

variable {p : PageSize} {c : Cube p} {pattern : Pattern}

/-- The places of a search along the planes. -/
def spots : Spots Matrix.Place Place := ⟨.plane, .planes, .finished⟩

/-- How a plane is searched by places. -/
def probe (pattern : Pattern) : Probe (Matrix p) Matrix.Place Voxel where
  first := .rows pattern.y.start
  look z plane inner :=
    match inner.next plane pattern.x pattern.y with
    | (some cell, inner) => (some (.onPlane cell z.toInt32), some inner)
    | (none, _) => (none, none)

/-- Taking up the next plane, and then looking into it, comes to a search of the planes. -/
theorem searchPlanes_of_next (wf : c.planes.WellFormed) {start : UInt64} {key : UInt32}
    {plane : Matrix p} (next : c.planes.nextAlong? pattern.z start = some (key, plane)) :
    searchPlanes c pattern start = (Place.plane key (.rows pattern.y.start)).next c pattern := by
  have stored := (PagedMap.nextAlong?_eq_some wf next).1
  rw [Place.next, searchPlanes, PagedMap.findAlong?_step wf, next, stored, Option.bind_some,
    Option.bind_some]
  cases nextIn pattern key plane (.rows pattern.y.start) <;> rfl

theorem searchPlanes_of_none (wf : c.planes.WellFormed) {start : UInt64}
    (next : c.planes.nextAlong? pattern.z start = none) :
    searchPlanes c pattern start = (none, .finished) := by
  rw [searchPlanes, PagedMap.findAlong?_step wf, next]
  rfl

theorem nextIn_eq_look (pattern : Pattern) (key : UInt32) (plane : Matrix p)
    (inner : Matrix.Place) :
    nextIn pattern key plane inner = match (probe pattern).look key plane inner with
      | (some voxel, rest) => some (voxel, rest.elim (spots.before (key.toUInt64 + 1))
          (spots.within key))
      | (none, _) => none := by
  rw [nextIn, probe]
  dsimp only
  cases inner.next plane pattern.x pattern.y with
  | mk cell rest => cases cell <;> rfl

/-- The search of the planes in one go is the loop that takes up plane after plane. -/
theorem walk (wf : c.planes.WellFormed) (pattern : Pattern) :
    spots.Walk (probe pattern) c.planes pattern.z (Place.next c pattern) where
  finished := rfl
  ends _ := searchPlanes_of_none wf
  enters _ _ _ := searchPlanes_of_next wf
  hits key plane inner voxel rest stored looked := by
    change (Place.plane key inner).next c pattern = _
    rw [Place.next, stored, Option.bind_some, nextIn_eq_look, looked]
  leaves key plane inner stored looked := by
    change (Place.plane key inner).next c pattern = searchPlanes c pattern (key.toUInt64 + 1)
    rw [Place.next, stored, Option.bind_some, nextIn_eq_look]
    revert looked
    cases (probe pattern).look key plane inner with
    | mk voxel rest =>
      rintro ⟨⟩
      rfl

theorem settles (c : Cube p) :
    spots.Settles c.planes (fun plane inner => inner.settle plane) (settle c) where
  finished := rfl
  before _ := rfl
  within key plane inner stored := by
    change (Place.plane key inner).settle c = .plane key (inner.settle plane)
    rw [settle, stored]
  gone key inner free := by
    change (Place.plane key inner).settle c = .planes (key.toUInt64 + 1)
    rw [settle, free]

end Cube.Place

namespace SharedCube

variable {p : PageSize} {s s' : SharedCube p} {c c' : Cube p} {pattern : Cube.Pattern}

/-- A plane is searched from the same place on, whether it is shared or not. -/
theorem follows_plane (pattern : Cube.Pattern) :
    Holder.Follows (planeProbe pattern.x pattern.y : Probe (SharedMatrix p) _ _)
      (Cube.Place.probe pattern) SharedMatrix.isEmpty (fun plane inner => inner.settle plane)
      SharedMatrix.Shows SharedMatrix.RowsChange (SharedMatrix.Stands pattern.x pattern.y) where
  still _ := .rests
  first _ := SharedMatrix.stands_opening _ _ _ false
  look := by
    intro plane value cursor inner key shows stands
    obtain ⟨answer, still⟩ := SharedMatrix.Stands.next shows stands
    rw [planeProbe, Cube.Place.probe]
    dsimp only
    revert answer still
    cases cursor.next plane with
    | mk cell cursor =>
      cases inner.next value pattern.x pattern.y with
      | mk cell' inner =>
        rintro rfl still
        cases cell with
        | none => exact ⟨rfl, .none⟩
        | some cell => exact ⟨rfl, .some still⟩
  settled stands change shows := SharedMatrix.Stands.change shows change stands
  emptied stands change vacant :=
    ⟨_, SharedMatrix.Stands.change (Holder.shows_of_isEmpty vacant) change stands⟩
  idle := by
    intro plane cursor inner key stands vacant
    have shows : plane.Shows .empty := Holder.shows_of_isEmpty vacant
    have answer := (SharedMatrix.Stands.next shows stands).1
    rw [Matrix.Place.next_empty] at answer
    rw [planeProbe]
    dsimp only
    revert answer
    cases cursor.next plane with
    | mk cell rest =>
      rintro ⟨⟩
      rfl

/-- Planes under the same keys that show each other, and the same counter. -/
structure Shows (s : SharedCube p) (c : Cube p) : Prop where
  planes : Holder.Shows SharedMatrix.Shows s.planes c.planes
  counter : s.counter = c.counter

/-- What a write comes to for the planes. -/
def PlanesChange (s s' : SharedCube p) : Prop :=
  Holder.Change SharedMatrix.RowsChange SharedMatrix.isEmpty s.planes s'.planes

/-- A cursor with a pattern, and the place that it stands for. -/
structure Stands (pattern : Cube.Pattern) (s : SharedCube p) (c : Cursor) (place : Cube.Place) :
    Prop where
  column : c.x = pattern.x
  row : c.y = pattern.y
  plane : c.planes.axis = pattern.z
  place : Holder.Stands SharedMatrix.isEmpty (SharedMatrix.Stands pattern.x pattern.y)
    Cube.Place.spots s.planes c.planes place

theorem Stands.next (shows : s.Shows c) {cursor : Cursor} {place : Cube.Place}
    (stands : Stands pattern s cursor place) :
    (cursor.next s).1 = (place.next c pattern).1 ∧
      Stands pattern s (cursor.next s).2 (place.next c pattern).2 := by
  obtain ⟨x, y, z⟩ := pattern
  obtain ⟨rfl, rfl, rfl, stands⟩ := stands
  obtain ⟨answer, still⟩ := stands.next (follows_plane ⟨cursor.x, cursor.y, cursor.planes.axis⟩)
    shows.planes (Cube.Place.walk shows.planes.wellFormed _)
  exact ⟨answer, rfl, rfl, cursor.planes.axis_next _ _, still⟩

/-- Between two planes, the loop over planes, rows and cells yields what a search of the planes
in one go yields. -/
theorem next_eq_searchPlanes (shows : s.Shows c) {cursor : Cursor}
    (going : cursor.planes.done = false) (between : cursor.planes.held = none) :
    (cursor.next s).1 =
      (Cube.Place.searchPlanes c ⟨cursor.x, cursor.y, cursor.planes.axis⟩
        cursor.planes.start).1 :=
  (Stands.next shows ⟨rfl, rfl, rfl, .between going between⟩).1

/-- A cursor that no write touches stands for the place that every write settles. -/
theorem Stands.change (shows : s'.Shows c') (change : s.PlanesChange s') {cursor : Cursor}
    {place : Cube.Place} (stands : Stands pattern s cursor place) :
    Stands pattern s' cursor (place.settle c') :=
  ⟨stands.column, stands.row, stands.plane,
    stands.place.change (follows_plane pattern) shows.planes (Cube.Place.settles c') change⟩

theorem shows_empty : (empty : SharedCube p).Shows .empty := ⟨Holder.shows_empty _, rfl⟩

theorem Shows.setAt (shows : s.Shows c) (x y z : UInt32) :
    (s.setAt x y z).1 = (c.setAt x y z).1 ∧ (s.setAt x y z).2.Shows (c.setAt x y z).2 := by
  have fresh : ((.empty : Matrix p).setAt x y).1 = true := by
    rw [Matrix.setAt_fst Matrix.wellFormed_empty]
    rfl
  obtain ⟨answer, planes⟩ := shows.planes.setIn z (fun plane => plane.setAt x y)
    (fun plane => plane.setAt x y) SharedMatrix.shows_empty fresh
    fun fits => SharedMatrix.Shows.setAt fits x y
  exact ⟨answer, planes, shows.counter⟩

theorem Shows.clearAt (shows : s.Shows c) (x y z : UInt32) :
    (s.clearAt x y z).1 = (c.clearAt x y z).1 ∧ (s.clearAt x y z).2.Shows (c.clearAt x y z).2 := by
  rw [SharedCube.clearAt, Cube.clearAt]
  cases held : s.planes.handle? z with
  | none =>
    rw [(shows.planes.get?_eq_none_iff z).mpr held, Holder.clearIn, held]
    exact ⟨rfl, shows⟩
  | some handle =>
    obtain ⟨plane, stored, -⟩ := shows.planes.of_some held
    rw [stored]
    obtain ⟨answer, planes⟩ := shows.planes.clearIn held stored (fun plane => plane.clearAt x y)
      (fun plane => plane.clearAt x y) (fun fits => SharedMatrix.Shows.clearAt fits x y)
      fun fits => SharedMatrix.Shows.isEmpty fits
    exact ⟨answer, planes, shows.counter⟩

theorem Shows.containsAt (shows : s.Shows c) (x y z : UInt32) :
    s.containsAt x y z = c.containsAt x y z := by
  rw [SharedCube.containsAt, Cube.containsAt]
  cases held : s.planes.handle? z with
  | none => rw [(shows.planes.get?_eq_none_iff z).mpr held]
  | some handle =>
    obtain ⟨plane, stored, fits⟩ := shows.planes.of_some held
    rw [stored]
    exact SharedMatrix.Shows.containsAt fits x y

theorem Shows.isEmpty (shows : s.Shows c) : s.isEmpty = c.isEmpty := shows.planes.isEmpty

theorem planesChange_setAt (s : SharedCube p) (x y z : UInt32) :
    s.PlanesChange (s.setAt x y z).2 :=
  Holder.change_setIn s.planes z .empty (fun plane => plane.setAt x y) fun plane =>
    SharedMatrix.rowsChange_setAt plane x y

theorem planesChange_clearAt (s : SharedCube p) (x y z : UInt32) :
    s.PlanesChange (s.clearAt x y z).2 :=
  Holder.change_clearIn s.planes z (fun plane => plane.clearAt x y) fun plane =>
    SharedMatrix.rowsChange_clearAt plane x y

/-- A call that changes a cube, with its answer. -/
def change (s : SharedCube p) : Cube.Write → Except Error (Bool × SharedCube p)
  | .set x y z => s.set x y z
  | .clear x y z => s.clear x y z
  | .insert x y z => s.insert x y z
  | .remove x y z => s.remove x y z

instance : Searchable (SharedCube p) Cursor Cube.Write (Int32 × Int32 × Int32) where
  write := change
  search s pattern := s.search pattern.1 pattern.2.1 pattern.2.2

/-- What a cursor has to do with a search by places. -/
def Matched (s : SharedCube p) (cursor : Cursor) (search : Cube.Search) : Prop :=
  Stands search.pattern s cursor search.place

theorem Shows.recount (shows : s.Shows c) (count : Int64 → Int64) :
    Shows { s with counter := count s.counter } { c with counter := count c.counter } :=
  ⟨shows.planes, congrArg count shows.counter⟩

section Writes

variable {outcome : Bool × SharedCube p} {other : Bool × Cube p}

/-- A write that counts always. -/
theorem Shows.counts (shows : outcome.2.Shows other.2) (answer : outcome.1 = other.1)
    (change : s.PlanesChange outcome.2) (count : Int64 → Int64) :
    Live.Writes Shows Matched s
      (.ok (outcome.1, { outcome.2 with counter := count outcome.2.counter }))
      (.ok (other.1, { other.2 with counter := count other.2.counter })) :=
  .of_pair answer (shows.recount count) fun matched =>
    Stands.change (shows.recount count) change matched

/-- A write that counts what it changes. -/
theorem Shows.counts_changed (shows : outcome.2.Shows other.2) (answer : outcome.1 = other.1)
    (change : s.PlanesChange outcome.2) (count : Int64 → Int64) :
    Live.Writes Shows Matched s
      (.ok (outcome.1, if outcome.1 then { outcome.2 with counter := count outcome.2.counter }
        else outcome.2))
      (.ok (other.1, if other.1 then { other.2 with counter := count other.2.counter }
        else other.2)) := by
  rw [answer]
  split
  · exact .ok _ (shows.recount count) fun matched =>
      Stands.change (shows.recount count) change matched
  · exact .ok _ shows fun matched => Stands.change shows change matched

end Writes

/-- A write answers as on values, and every cursor stands for the settled place. -/
theorem Shows.change (shows : s.Shows c) (write : Cube.Write) :
    Live.Writes Shows Matched s (s.change write) (c.change write) := by
  cases write with
  | set x y z | insert x y z =>
    simp only [SharedCube.change, Cube.change, SharedCube.set, Cube.set, SharedCube.insert,
      Cube.insert, Cube.locate_eq]
    cases Voxel.refusal? ⟨x, y, z⟩ with
    | some e => exact .error e
    | none =>
      obtain ⟨answer, shows'⟩ := shows.setAt x.toUInt32 y.toUInt32 z.toUInt32
      have change := planesChange_setAt s x.toUInt32 y.toUInt32 z.toUInt32
      -- `set` counts always, `insert` what it changes.
      first
      | exact shows'.counts answer change (· + 1)
      | exact shows'.counts_changed answer change (· + 1)
  | clear x y z | remove x y z =>
    simp only [SharedCube.change, Cube.change, SharedCube.clear, Cube.clear, SharedCube.remove,
      Cube.remove, Cube.locate_eq]
    cases Voxel.refusal? ⟨x, y, z⟩ with
    | some e => exact .error e
    | none =>
      obtain ⟨answer, shows'⟩ := shows.clearAt x.toUInt32 y.toUInt32 z.toUInt32
      have change := planesChange_clearAt s x.toUInt32 y.toUInt32 z.toUInt32
      -- `clear` counts always, `remove` what it changes.
      first
      | exact shows'.counts answer change (· - 1)
      | exact shows'.counts_changed answer change (· - 1)

theorem planesChange {write : Cube.Write} {changed : Bool}
    (outcome : s.change write = .ok (changed, s')) : s.PlanesChange s' := by
  cases write with
  | set x y z | insert x y z =>
    have change := planesChange_setAt s x.toUInt32 y.toUInt32 z.toUInt32
    simp only [SharedCube.change, SharedCube.set, SharedCube.insert, Cube.locate_eq] at outcome
    split at outcome
    · cases outcome
    · cases outcome
      first
      | exact change
      | split <;> exact change
  | clear x y z | remove x y z =>
    have change := planesChange_clearAt s x.toUInt32 y.toUInt32 z.toUInt32
    simp only [SharedCube.change, SharedCube.clear, SharedCube.remove, Cube.locate_eq] at outcome
    split at outcome
    · cases outcome
    · cases outcome
      first
      | exact change
      | split <;> exact change

theorem Shows.search (shows : s.Shows c) (x y z : Int32) :
    Session.Opens (Matched s) (s.search x y z) (c.search x y z) := by
  rw [SharedCube.search, Cube.search]
  cases Axis.pattern .x x with
  | error e => exact .error e
  | ok x =>
    cases Axis.pattern .y y with
    | error e => exact .error e
    | ok y =>
      cases Axis.pattern .z z with
      | error e => exact .error e
      | ok z =>
        refine .ok ⟨rfl, rfl, rfl, ?_⟩
        rw [← shows.isEmpty]
        exact Holder.stands_opening z s.isEmpty

theorem simulates : Live.Simulates (Shows (p := p)) Matched where
  write := Shows.change
  search shows pattern := shows.search pattern.1 pattern.2.1 pattern.2.2
  unchanged _ _ := rfl
  next shows matched := ⟨(Stands.next shows matched).1, shows, (Stands.next shows matched).2⟩

theorem Shows.contains (shows : s.Shows c) (x y z : Int32) :
    s.contains x y z = c.contains x y z := by
  rw [SharedCube.contains, Cube.contains, Cube.locate_eq]
  cases Voxel.refusal? ⟨x, y, z⟩ with
  | some e => rfl
  | none => exact congrArg Except.ok (shows.containsAt _ _ _)

/-- The cube that calls leave, with the searches that they leave open. -/
def history (p : PageSize) (calls : List (Live.Call Cube.Write (Int32 × Int32 × Int32))) :
    Live (SharedCube p) Cursor :=
  Live.after calls (.of .empty)

theorem linked_history (p : PageSize)
    (calls : List (Live.Call Cube.Write (Int32 × Int32 × Int32))) :
    Live.Linked Shows Matched (history p calls) (Live.after calls (.of .empty)) :=
  (simulates.run (Session.paired_of shows_empty) calls).2

/-- Every history is answered as on values. -/
theorem answers_eq (p : PageSize)
    (calls : List (Live.Call Cube.Write (Int32 × Int32 × Int32))) :
    (Calls.run Live.step calls (Live.of (empty : SharedCube p) : Live _ Cursor)).1 =
      (Calls.run Live.step calls (Live.of (.empty : Cube p) : Live _ Cube.Search)).1 :=
  (simulates.run (Session.paired_of shows_empty) calls).1

section Held

variable {calls : List (Live.Call Cube.Write (Int32 × Int32 × Int32))} {number : Int}
  {cursor : Cursor} {z : UInt32} {handle : Handle} {inner : SharedMatrix.Cursor}

/-- A plane that a search holds is held under its `z` too, or it was dropped. Then it is empty
for good, and no plane that comes under that `z` later is the one that the search holds. -/
theorem held_plane (standing : (history p calls).cursors.find? number = some cursor)
    (going : cursor.planes.done = false) (holds : cursor.planes.held = some (z, handle, inner)) :
    (history p calls).subject.planes.handle? z = some handle ∨
      ∀ later : List (Live.Call Cube.Write (Int32 × Int32 × Int32)),
        Holder.Dropped SharedMatrix.isEmpty
          (Live.after later (history p calls)).subject.planes handle := by
  obtain ⟨search, matched⟩ := (linked_history p calls).exists_matched standing
  refine (matched.place.linked_or_dropped going holds).imp_right fun dropped later => ?_
  exact Live.subject_after (fun _ _ => rfl)
    (fun s : SharedCube p => Holder.Dropped SharedMatrix.isEmpty s.planes handle)
    (fun _ _ _ _ dropped outcome => dropped.change (planesChange outcome)) later dropped

/-- Of a row that a search holds within a plane the same is true in that plane, also where the
plane itself was dropped. -/
theorem held_row_of_plane (standing : (history p calls).cursors.find? number = some cursor)
    (going : cursor.planes.done = false) (holds : cursor.planes.held = some (z, handle, inner))
    (within : inner.rows.done = false) {y : UInt32} {row : Handle} {bit : UInt64}
    (scans : inner.rows.held = some (y, row, bit)) :
    ((history p calls).subject.planes.object handle).rows.handle? y = some row ∨
      Holder.Dropped BitSet.isEmpty ((history p calls).subject.planes.object handle).rows row := by
  obtain ⟨search, matched⟩ := (linked_history p calls).exists_matched standing
  obtain ⟨-, spot, stands, -⟩ := matched.place.of_some going holds
  exact stands.place.linked_or_dropped within scans

end Held

end SharedCube

end TripleCube
