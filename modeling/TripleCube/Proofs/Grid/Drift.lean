import Mathlib.Algebra.Ring.Int.Defs
import TripleCube.Proofs.Grid.Refusal
import TripleCube.Proofs.Snapshot.Reload

/-! The counter of a cube beside its cells. Every call changes the number of the cells by what it
answers. Every call but two kinds moves the counter by as much: a `set` of a cell that is set and
a `clear` of a cell that is clear move the counter and no cell. So the counter is ahead of the
cells by what it was ahead at the start and by the calls of these two kinds. -/
namespace TripleCube.Cube

variable {p : PageSize}

/-- The calls of a history, each with its answer. -/
def exchanges (calls : List Call) (c : Cube p) : List (Call × Answer) :=
  calls.zip (Calls.run step calls c).1

/-- By how much a call that is so answered changes the number of cells. -/
def cellGain : Call × Answer → Int
  | (.write (.set ..), .told (.ok true)) | (.write (.insert ..), .told (.ok true)) => 1
  | (.write (.clear ..), .told (.ok true)) | (.write (.remove ..), .told (.ok true)) => -1
  | _ => 0

/-- By how much a call that is so answered moves the counter, if the counter has room. -/
def counterGain : Call × Answer → Int
  | (.write (.set ..), .told (.ok _)) | (.write (.insert ..), .told (.ok true)) => 1
  | (.write (.clear ..), .told (.ok _)) | (.write (.remove ..), .told (.ok true)) => -1
  | _ => 0

/-- A `set` that finds its cell set. -/
def idleSet : Call × Answer → Bool
  | (.write (.set ..), .told (.ok false)) => true
  | _ => false

/-- A `clear` that finds its cell clear. -/
def idleClear : Call × Answer → Bool
  | (.write (.clear ..), .told (.ok false)) => true
  | _ => false

/-- Whether a call counts only what it changes. -/
def Write.Exact : Write → Prop
  | .insert .. | .remove .. => True
  | .set .. | .clear .. => False

/-- By how much the counter is ahead of the cells. -/
def drift (c : Cube p) : Int := c.counter.toInt - c.cardinality

/-- The numbers of 64 bits with a sign. -/
def InRange (number : Int) : Prop := -2 ^ 63 ≤ number ∧ number < 2 ^ 63

instance (number : Int) : Decidable (InRange number) := inferInstanceAs (Decidable (_ ∧ _))

/-- Whether the counter keeps in its range at every moment of a history. -/
def StaysInRange (calls : List Call) (c : Cube p) : Prop :=
  ∀ early, early <+: calls → InRange (c.counter.toInt + ((exchanges early c).map counterGain).sum)

theorem exchanges_cons (call : Call) (rest : List Call) (c : Cube p) :
    exchanges (call :: rest) c = (call, (c.step call).1) :: exchanges rest (c.step call).2 := rfl

/-- What moves the counter and not the cells are the idle calls. -/
theorem counterGain_eq (exchange : Call × Answer) :
    counterGain exchange = cellGain exchange + (if idleSet exchange then 1 else 0) -
      (if idleClear exchange then 1 else 0) := by
  rcases exchange with ⟨⟨_ | _ | _ | _⟩ | _ | _ | _ | _, ⟨_ | ⟨_ | _⟩⟩ | _⟩ <;> rfl

theorem sum_counterGain (exchanges : List (Call × Answer)) :
    (exchanges.map counterGain).sum = (exchanges.map cellGain).sum +
      exchanges.countP idleSet - exchanges.countP idleClear := by
  induction exchanges with
  | nil => rfl
  | cons exchange rest ih =>
    simp only [List.map_cons, List.sum_cons, List.countP_cons, ih, counterGain_eq exchange]
    split <;> split <;> push_cast <;> omega

section Step

variable {c : Cube p} {voxels : Finset Voxel}

theorem Write.card_effect (voxels : Finset Voxel) {write : Write} (proper : write.voxel.Proper) :
    ((write.effect voxels).card : Int) =
      voxels.card + cellGain (.write write, .told (.ok (write.changes voxels))) := by
  cases write with
  | set x y z | insert x y z =>
    have nonneg : 0 ≤ x ∧ 0 ≤ y ∧ 0 ≤ z := proper
    by_cases member : (⟨x, y, z⟩ : Voxel) ∈ voxels <;>
      simp [effect, changes, nonneg, member, cellGain]
  | clear x y z | remove x y z =>
    by_cases member : (⟨x, y, z⟩ : Voxel) ∈ voxels
    · have fewer := Finset.card_erase_add_one member
      simp [effect, changes, member, cellGain]
      omega
    · simp [effect, changes, member, cellGain]

/-- A call changes the number of the cells by what it answers. -/
theorem Represents.cardinality_step (represents : c.Represents voxels) (call : Call) :
    ((c.step call).2.cardinality : Int) = c.cardinality + cellGain (call, (c.step call).1) := by
  cases call with
  | write write =>
    rw [Cube.step, represents.change]
    cases refused : write.voxel.refusal? with
    | some e => cases write <;> simp [cellGain]
    | none =>
      simp only [(represents.apply write).cardinality, represents.cardinality]
      exact Write.card_effect voxels (Voxel.refusal?_eq_none_iff.mp refused)
  | _ => simp [Cube.step, cellGain]

/-- A call moves the counter by what it answers. -/
theorem Represents.counter_step (represents : c.Represents voxels) (call : Call) :
    (c.step call).2.counter = c.counter + Int64.ofInt (counterGain (call, (c.step call).1)) := by
  cases call with
  | write write =>
    have counted := represents.counter_apply write
    rw [Cube.step, represents.change]
    cases refused : write.voxel.refusal? with
    | some e => cases write <;> simp [counterGain]
    | none =>
      rw [Write.count, if_pos (Voxel.refusal?_eq_none_iff.mp refused)] at counted
      simp only [counted]
      cases write with
      | set x y z | clear x y z => simp [Write.moved, counterGain, Int64.sub_eq_add_neg]
      | insert x y z | remove x y z =>
        by_cases member : (⟨x, y, z⟩ : Voxel) ∈ voxels <;>
          simp [Write.moved, Write.changes, member, counterGain, Int64.sub_eq_add_neg]
  | _ => simp [Cube.step, counterGain]

/-- A call that counts only what it changes leaves the cube as it is where it changes nothing. -/
theorem Represents.step_eq_of_idle (represents : c.Represents voxels) {write : Write}
    (exact : write.Exact) (idle : (c.step (.write write)).1 = .told (.ok false)) :
    (c.step (.write write)).2 = c := by
  have counter := represents.counter_step (.write write)
  have applied := represents.apply write
  rw [idle] at counter
  rw [Cube.step, represents.change] at idle counter ⊢
  cases refused : write.voxel.refusal? with
  | some e => rfl
  | none =>
    simp only [refused, Answer.told.injEq, Except.ok.injEq] at idle counter
    cases write with
    | set x y z | clear x y z => cases exact
    | insert x y z =>
      have member : (⟨x, y, z⟩ : Voxel) ∈ voxels := by simpa [Write.changes] using idle
      have kept : (Write.insert x y z).effect voxels = voxels := by simp [Write.effect, member]
      exact Represents.eq (kept ▸ applied) represents (by simpa [counterGain] using counter)
    | remove x y z =>
      have absent : (⟨x, y, z⟩ : Voxel) ∉ voxels := by simpa [Write.changes] using idle
      have kept : (Write.remove x y z).effect voxels = voxels := by simp [Write.effect, absent]
      exact Represents.eq (kept ▸ applied) represents (by simpa [counterGain] using counter)

end Step

section Run

variable {c : Cube p}

theorem Reachable.step (reached : c.Reachable) (call : Call) : (c.step call).2.Reachable := by
  cases call with
  | write write =>
    have applied : (c.step (.write write)).2 = c.apply write := by
      rw [Cube.step, apply_eq]
      cases c.change write <;> rfl
    exact applied ▸ .write write reached
  | _ => exact reached

theorem Reachable.cardinality_run (reached : c.Reachable) (calls : List Call) :
    ((Calls.run Cube.step calls c).2.cardinality : Int) =
      c.cardinality + ((exchanges calls c).map cellGain).sum := by
  induction calls generalizing c with
  | nil => simp [Calls.run, exchanges]
  | cons call rest ih =>
    obtain ⟨voxels, represents⟩ := reached.represents
    have first := represents.cardinality_step call
    have later := ih (reached.step call)
    simp only [Calls.run, exchanges_cons, List.map_cons, List.sum_cons]
    omega

theorem Reachable.counter_run (reached : c.Reachable) (calls : List Call) :
    (Calls.run Cube.step calls c).2.counter =
      Int64.ofInt (c.counter.toInt + ((exchanges calls c).map counterGain).sum) := by
  induction calls generalizing c with
  | nil => simp [Calls.run, exchanges]
  | cons call rest ih =>
    obtain ⟨voxels, represents⟩ := reached.represents
    simp only [Calls.run, exchanges_cons, List.map_cons, List.sum_cons, ih (reached.step call),
      represents.counter_step call, Int64.ofInt_add, Int64.ofInt_toInt, Int64.add_assoc]

/-- The counter moves by the answers of the calls, as long as it keeps in its range. -/
theorem Reachable.toInt_counter_run (reached : c.Reachable) {calls : List Call}
    (stays : StaysInRange calls c) : (Calls.run Cube.step calls c).2.counter.toInt =
      c.counter.toInt + ((exchanges calls c).map counterGain).sum := by
  obtain ⟨least, greatest⟩ := stays calls (List.prefix_refl calls)
  rw [reached.counter_run]
  exact Int64.toInt_ofInt_of_le least greatest

theorem idle_eq_false_of_exact {exchange : Call × Answer}
    (exact : ∀ write, exchange.1 = .write write → write.Exact) :
    idleSet exchange = false ∧ idleClear exchange = false := by
  rcases exchange with ⟨⟨_ | _ | _ | _⟩ | _ | _ | _ | _, answer⟩
  case write.set | write.clear => exact absurd (exact _ rfl) id
  all_goals exact ⟨rfl, rfl⟩

/-- Where only exact calls write, no call is idle. -/
theorem countP_idle_of_exact {calls : List Call}
    (exact : ∀ write, .write write ∈ calls → write.Exact) (c : Cube p) :
    (exchanges calls c).countP idleSet = 0 ∧ (exchanges calls c).countP idleClear = 0 := by
  have busy : ∀ exchange ∈ exchanges calls c,
      idleSet exchange = false ∧ idleClear exchange = false := by
    intro exchange member
    have called : exchange.1 ∈ calls := (List.of_mem_zip member).1
    exact idle_eq_false_of_exact fun write same => exact write (same ▸ called)
  simp only [List.countP_eq_zero, Bool.not_eq_true]
  exact ⟨fun exchange member => (busy exchange member).1,
    fun exchange member => (busy exchange member).2⟩

/-- The counter of a cube that any calls and snapshots led to. After any further calls it is ahead
of the cells by what it was ahead before, and by the `set`s less the `clear`s among the calls that
answered that nothing had changed. A cube that is new and changed by `insert` and `remove` only
counts its cells. A call that fails, and an `insert` or a `remove` that changes nothing, leaves
the cube as it is, with its counter. -/
theorem drift_counts_idle_calls {p : PageSize} {c : Cube p} (reached : c.Reachable) :
    (∀ calls, let later := (Calls.run step calls c).2
      let idleSets := (exchanges calls c).countP idleSet
      let idleClears := (exchanges calls c).countP idleClear
      later.counter = Int64.ofInt (later.cardinality + c.drift + idleSets - idleClears) ∧
      (StaysInRange calls c → later.drift = c.drift + idleSets - idleClears)) ∧
    (∀ calls, (∀ write, .write write ∈ calls → write.Exact) →
      StaysInRange calls (empty : Cube p) →
        let later := (Calls.run step calls (empty : Cube p)).2
        later.counter.toInt = later.cardinality) ∧
    (∀ call e, (c.step call).1 = .told (.error e) → (c.step call).2 = c) ∧
    ∀ write : Write, write.Exact → (c.step (.write write)).1 = .told (.ok false) →
      (c.step (.write write)).2 = c := by
  have ⟨voxels, represents⟩ := reached.represents
  refine ⟨fun calls => ⟨?_, fun stays => ?_⟩, fun calls exact stays => ?_, fun call e failed => ?_,
    fun write exact idle => represents.step_eq_of_idle exact idle⟩
  · have cells := reached.cardinality_run calls
    have gains := sum_counterGain (exchanges calls c)
    rw [reached.counter_run]
    congr 1
    rw [drift]
    omega
  · have cells := reached.cardinality_run calls
    have counter := reached.toInt_counter_run stays
    have gains := sum_counterGain (exchanges calls c)
    rw [drift, drift]
    omega
  · have cells := Reachable.empty.cardinality_run (p := p) calls
    have counter := Reachable.empty.toInt_counter_run stays
    have gains := sum_counterGain (exchanges calls (empty : Cube p))
    obtain ⟨sets, clears⟩ := countP_idle_of_exact exact (empty : Cube p)
    have zero : (empty : Cube p).counter.toInt = 0 := rfl
    have none : (empty : Cube p).cardinality = 0 := rfl
    omega
  · refine step_of_failed ?_
    rw [failed]
    exact ⟨e, rfl⟩

/-- A snapshot whose counter is ahead of its cells, and calls of which one finds its cell set, two
find theirs clear and one is refused. -/
theorem drift_counts_idle_calls_loaded :
    let p : PageSize := ⟨3, by decide⟩
    let loaded : Cube p := { empty.apply (.set 1 2 3) with counter := 7 }
    let calls : List Call := [.write (.set 1 2 3), .write (.clear 9 9 9), .write (.set 4 5 6),
      .write (.remove 0 0 0), .write (.clear 4 wild 6), .write (.clear 9 9 9)]
    read ⟨Snapshot.layout 3 7 [⟨1, 2, 3⟩], none⟩ = .ok ⟨p, loaded⟩ ∧ StaysInRange calls loaded ∧
      loaded.drift = 6 ∧ (Calls.run step calls loaded).2.drift = 5 := by
  intro p loaded calls
  have represents : loaded.Represents [⟨1, 2, 3⟩].toFinset :=
    (represents_empty.apply (.set 1 2 3)).recount 7
  have read : read ⟨Snapshot.layout 3 7 [⟨1, 2, 3⟩], none⟩ = .ok ⟨p, loaded⟩ :=
    read_eq_ok.mpr ⟨_, ⟨by decide, List.prefix_refl _⟩, represents⟩
  have inRange : ∀ early ∈ calls.inits,
      InRange (loaded.counter.toInt + ((exchanges early loaded).map counterGain).sum) := by decide
  have stays : StaysInRange calls loaded := fun early starts =>
    inRange early ((List.mem_inits _ _).mpr starts)
  have counted := ((drift_counts_idle_calls (.read read)).1 calls).2 stays
  exact ⟨read, stays, by decide, counted.trans (by decide)⟩

end Run

end TripleCube.Cube
