import Mathlib.Data.List.Induction
import Mathlib.Data.List.Nodup
import Mathlib.Data.List.ReduceOption
import TripleCube.Proofs.Live
import TripleCube.Proofs.Traversal

/-! Cursors by what is ahead of them. A cursor that stands behind an item has ahead of it the
wanted items that come later, and a step takes the first of those that are there. Being settled
costs it only the items that lie in a dropped part of the container together with the item it
stands behind. From these laws of single steps follows what holds of every history: what stays
in the container while it is ahead of a cursor is returned, and what is not ahead never is. -/
namespace TripleCube

/-- Containers and their cursors as sets of items. -/
structure Horizon (σ κ ι : Type) where
  Valid : σ → Prop
  Holds : σ → ι → Prop
  Before : ι → ι → Prop
  /-- The items that match the pattern of a cursor. -/
  Wants : κ → ι → Prop
  /-- The items that a cursor has still to come to. -/
  Ahead : κ → ι → Prop
  /-- A cursor stands behind the item that it returned last, if it returned one. -/
  Stands : κ → Option ι → Prop
  /-- Whether a part of the container in which both items lie has been dropped. -/
  Apart : σ → ι → ι → Prop

namespace Horizon

variable {σ κ ι ω π : Type}

section Steps

variable (h : Horizon σ κ ι)

/-- A step from `cursor` to `moved` that returns an item. -/
structure Hit (s : σ) (cursor : κ) (item : ι) (moved : κ) : Prop where
  holds : h.Holds s item
  ahead : h.Ahead cursor item
  stands : h.Stands moved (some item)
  later : ∀ v, h.Ahead moved v ↔ h.Wants cursor v ∧ h.Before item v
  within : ∀ v, h.Ahead moved v → h.Ahead cursor v
  first : ∀ v, h.Holds s v → h.Ahead cursor v → v = item ∨ h.Ahead moved v

/-- A step from `cursor` to `moved` that returns the end. -/
structure Miss (s : σ) (cursor : κ) (last : Option ι) (moved : κ) : Prop where
  stands : h.Stands moved last
  nothing : ∀ v, h.Holds s v → ¬ h.Ahead cursor v
  ended : ∀ v, ¬ h.Ahead moved v

/-- The laws of single steps. -/
structure Lawful [Traversal σ κ ι] [Searchable σ κ ω π] : Prop where
  irrefl : ∀ item, ¬ h.Before item item
  unchanged : ∀ (s : σ) (cursor : κ), (Traversal.next s cursor).2.1 = s
  write : ∀ (s s' : σ) (write : ω) (changed : Bool), h.Valid s →
    Searchable.write (κ := κ) s write = .ok (changed, s') → h.Valid s'
  wanted : ∀ (cursor : κ) last v, h.Stands cursor last → h.Ahead cursor v → h.Wants cursor v
  wants_next : ∀ (s : σ) (cursor : κ) v,
    h.Wants (Traversal.next s cursor).2.2 v ↔ h.Wants cursor v
  wants_settle : ∀ (s : σ) (cursor : κ) v, h.Wants (Traversal.settle s cursor) v ↔ h.Wants cursor v
  hit : ∀ (s : σ) (cursor : κ) last item, h.Valid s → h.Stands cursor last →
    (Traversal.next s cursor).1 = some item → h.Hit s cursor item (Traversal.next s cursor).2.2
  miss : ∀ (s : σ) (cursor : κ) last, h.Valid s → h.Stands cursor last →
    (Traversal.next s cursor).1 = none → h.Miss s cursor last (Traversal.next s cursor).2.2
  settles : ∀ (s : σ) (cursor : κ) last, h.Valid s → h.Stands cursor last →
    h.Stands (Traversal.settle s cursor) last
  ahead_settle : ∀ (s : σ) (cursor : κ) last, h.Valid s → h.Stands cursor last → ∀ v,
    h.Ahead (Traversal.settle s cursor) v ↔ h.Ahead cursor v ∧ ∀ l, last = some l → ¬ h.Apart s l v
  not_apart_left : ∀ s l v, h.Valid s → h.Holds s l → ¬ h.Apart s l v
  not_apart_right : ∀ s l v, h.Valid s → h.Holds s v → ¬ h.Apart s l v

/-- What lies between two moments of a cursor that returned some answers in between. -/
structure Progress (cursor : κ) (answers : List (Option ι)) (moved : κ) : Prop where
  wants : ∀ v, h.Wants moved v ↔ h.Wants cursor v
  within : ∀ v, h.Ahead moved v → h.Ahead cursor v
  drawn : ∀ v, some v ∈ answers → h.Ahead cursor v
  past : ∀ v, h.Ahead moved v → ∀ earlier, some earlier ∈ answers → h.Before earlier v
  ascending : answers.reduceOption.Pairwise h.Before
  ended : none ∈ answers → ∀ v, ¬ h.Ahead moved v

end Steps

variable {h : Horizon σ κ ι} {cursor moved : κ} {last : Option ι}

theorem Progress.of_nothing (wants : ∀ v, h.Wants moved v ↔ h.Wants cursor v)
    (within : ∀ v, h.Ahead moved v → h.Ahead cursor v) : h.Progress cursor [] moved where
  wants := wants
  within := within
  drawn _ member := absurd member List.not_mem_nil
  past _ _ _ member := absurd member List.not_mem_nil
  ascending := List.Pairwise.nil
  ended member := absurd member List.not_mem_nil

theorem Progress.refl (cursor : κ) : h.Progress cursor [] cursor :=
  .of_nothing (fun _ => Iff.rfl) fun _ ahead => ahead

theorem Progress.trans {middle : κ} {first second : List (Option ι)}
    (before : h.Progress cursor first middle) (later : h.Progress middle second moved) :
    h.Progress cursor (first ++ second) moved where
  wants v := (later.wants v).trans (before.wants v)
  within v ahead := before.within v (later.within v ahead)
  drawn v member := by
    rcases List.mem_append.mp member with early | late
    · exact before.drawn v early
    · exact before.within v (later.drawn v late)
  past v ahead earlier member := by
    rcases List.mem_append.mp member with early | late
    · exact before.past v (later.within v ahead) earlier early
    · exact later.past v ahead earlier late
  ascending := by
    rw [List.reduceOption_append]
    refine List.pairwise_append.mpr ⟨before.ascending, later.ascending, fun a early b late => ?_⟩
    rw [List.reduceOption_mem_iff] at early late
    exact before.past b (later.drawn b late) a early
  ended member v ahead := by
    rcases List.mem_append.mp member with early | late
    · exact before.ended early v (later.within v ahead)
    · exact later.ended late v ahead

theorem Hit.progress {s : σ} {item : ι} (hit : h.Hit s cursor item moved)
    (wants : ∀ v, h.Wants moved v ↔ h.Wants cursor v) : h.Progress cursor [some item] moved where
  wants := wants
  within := hit.within
  drawn v member := by
    cases List.mem_singleton.mp member
    exact hit.ahead
  past v ahead earlier member := by
    cases List.mem_singleton.mp member
    exact ((hit.later v).mp ahead).2
  ascending := by simp
  ended member := by simp at member

theorem Miss.progress {s : σ} (miss : h.Miss s cursor last moved)
    (wants : ∀ v, h.Wants moved v ↔ h.Wants cursor v) : h.Progress cursor [none] moved where
  wants := wants
  within v ahead := absurd ahead (miss.ended v)
  drawn v member := by simp at member
  past v ahead := absurd ahead (miss.ended v)
  ascending := by simp
  ended _ := miss.ended

section Turn

variable {number : Int} {before now : σ} {call : Live.Call ω π} {answer : Option (Option ι)}
  {last' : Option ι}

/-- What a call comes to for a cursor: its answer, and the item that it stands behind. -/
inductive Turn (h : Horizon σ κ ι) (number : Int) (before now : σ) (cursor : κ)
    (last : Option ι) : Live.Call ω π → Option (Option ι) → κ → Option ι → Prop
  | rests {call : Live.Call ω π} (other : call ≠ .next number) (same : now = before) :
    Turn h number before now cursor last call none cursor last
  | settles {write : ω} {moved : κ}
    (ahead : ∀ v, h.Ahead moved v ↔ h.Ahead cursor v ∧ ∀ l, last = some l → ¬ h.Apart now l v) :
    Turn h number before now cursor last (.write write) none moved last
  | hits {item : ι} {moved : κ} (same : now = before) (hit : h.Hit before cursor item moved) :
    Turn h number before now cursor last (.next number) (some (some item)) moved (some item)
  | misses {moved : κ} (same : now = before) (miss : h.Miss before cursor last moved) :
    Turn h number before now cursor last (.next number) (some none) moved last

theorem Turn.progress (turn : h.Turn number before now cursor last call answer moved last')
    (wants : ∀ v, h.Wants moved v ↔ h.Wants cursor v) :
    h.Progress cursor answer.toList moved := by
  cases turn with
  | rests => exact .refl cursor
  | settles ahead => exact .of_nothing wants fun v isAhead => ((ahead v).mp isAhead).1
  | hits same hit => exact hit.progress wants
  | misses same miss => exact miss.progress wants

end Turn

/-- In a live container, a cursor that is open under a number and stands behind an item. -/
structure Open (h : Horizon σ κ ι) (live : Live σ κ) (number : Int) (cursor : κ)
    (last : Option ι) : Prop where
  found : live.cursors.find? number = some cursor
  valid : h.Valid live.subject
  stands : h.Stands cursor last

/-- A cursor that has just been opened has returned nothing. -/
theorem Open.of_stands {live : Live σ κ} {number : Int} (valid : h.Valid live.subject)
    (stands : h.Stands cursor none) : h.Open (live.openCursor number cursor) number cursor none :=
  ⟨by simp [Live.openCursor], valid, stands⟩

variable [Traversal σ κ ι]

section Lists

variable {s : σ} {remaining : κ → List ι} {Steady : κ → Prop}

/-- A cursor that lists the items that are there and ahead passes over none of them. -/
theorem Hit.of_lists (lists : Traversal.Lists s remaining Steady)
    (member : ∀ cursor v, v ∈ remaining cursor ↔ h.Holds s v ∧ h.Ahead cursor v)
    (steady : Steady cursor) {item : ι} (answer : (Traversal.next s cursor).1 = some item)
    (stands : h.Stands (Traversal.next s cursor).2.2 (some item))
    (later : ∀ v, h.Ahead (Traversal.next s cursor).2.2 v ↔ h.Wants cursor v ∧ h.Before item v)
    (within : ∀ v, h.Ahead (Traversal.next s cursor).2.2 v → h.Ahead cursor v) :
    h.Hit s cursor item (Traversal.next s cursor).2.2 := by
  obtain ⟨rest, listed⟩ := List.head?_eq_some_iff.mp ((lists.answer cursor steady).symm.trans answer)
  have others := lists.tail cursor steady
  rw [listed, List.tail_cons] at others
  obtain ⟨holds, ahead⟩ := (member cursor item).mp (listed ▸ List.mem_cons_self)
  refine ⟨holds, ahead, stands, later, within, fun v there isAhead => ?_⟩
  have among := (member cursor v).mpr ⟨there, isAhead⟩
  rw [listed, List.mem_cons] at among
  exact among.imp_right fun rests => ((member _ v).mp (others ▸ rests)).2

theorem Miss.of_lists (lists : Traversal.Lists s remaining Steady)
    (member : ∀ cursor v, v ∈ remaining cursor ↔ h.Holds s v ∧ h.Ahead cursor v)
    (steady : Steady cursor) (answer : (Traversal.next s cursor).1 = none)
    (stands : h.Stands (Traversal.next s cursor).2.2 last)
    (ended : ∀ v, ¬ h.Ahead (Traversal.next s cursor).2.2 v) :
    h.Miss s cursor last (Traversal.next s cursor).2.2 := by
  refine ⟨stands, fun v there isAhead => ?_, ended⟩
  have among := (member cursor v).mpr ⟨there, isAhead⟩
  rw [List.head?_eq_none_iff.mp ((lists.answer cursor steady).symm.trans answer)] at among
  exact List.not_mem_nil among

end Lists

variable [Searchable σ κ ω π] {live : Live σ κ} {number : Int}

/-- Every call that does not open the cursor anew comes to one of these. -/
theorem Open.turn (lawful : h.Lawful) (isOpen : h.Open live number cursor last)
    {call : Live.Call ω π} (kept : ∀ pattern, call ≠ .openCursor number pattern) :
    ∃ answer moved last', Live.own number call (live.step call).1 = answer ∧
      h.Open (live.step call).2 number moved last' ∧ (∀ v, h.Wants moved v ↔ h.Wants cursor v) ∧
      h.Turn number live.subject (live.step call).2.subject cursor last call answer moved
        last' := by
  obtain ⟨answer, moved, answered, found, moves⟩ := Live.moves lawful.unchanged isOpen.found kept
  have valid := isOpen.valid
  cases moves with
  | rests other same =>
    exact ⟨_, cursor, last, answered, ⟨found, same ▸ valid, isOpen.stands⟩, fun _ => Iff.rfl,
      .rests other same⟩
  | settles changed written =>
    have still := lawful.write _ _ _ changed valid written
    exact ⟨_, _, last, answered, ⟨found, still, lawful.settles _ _ last still isOpen.stands⟩,
      lawful.wants_settle _ _, .settles (lawful.ahead_settle _ _ last still isOpen.stands)⟩
  | steps same =>
    cases outcome : (Traversal.next live.subject cursor).1 with
    | some item =>
      have hit := lawful.hit _ _ last item valid isOpen.stands outcome
      exact ⟨_, _, some item, outcome ▸ answered, ⟨found, same ▸ valid, hit.stands⟩,
        lawful.wants_next _ _, .hits same hit⟩
    | none =>
      have miss := lawful.miss _ _ last valid isOpen.stands outcome
      exact ⟨_, _, last, outcome ▸ answered, ⟨found, same ▸ valid, miss.stands⟩,
        lawful.wants_next _ _, .misses same miss⟩

/-- Nothing that is there is passed over. -/
theorem Turn.passes (lawful : h.Lawful) {before now : σ} (valid : h.Valid now)
    {call : Live.Call ω π} {answer : Option (Option ι)} {last' : Option ι}
    (turn : h.Turn number before now cursor last call answer moved last') {v : ι}
    (holds : h.Holds now v) (ahead : h.Ahead cursor v) :
    some v ∈ answer.toList ∨ h.Ahead moved v := by
  cases turn with
  | rests => exact Or.inr ahead
  | settles settled =>
    exact Or.inr ((settled v).mpr ⟨ahead, fun l _ => lawful.not_apart_right _ l v valid holds⟩)
  | hits same hit =>
    rcases hit.first v (same ▸ holds) ahead with rfl | later
    · exact Or.inl List.mem_cons_self
    · exact Or.inr later
  | misses same miss => exact absurd ahead (miss.nothing v (same ▸ holds))

/-- Any calls: the cursor makes progress, and what it has ahead and what stays comes. -/
theorem Open.run (lawful : h.Lawful) (isOpen : h.Open live number cursor last)
    {calls : List (Live.Call ω π)} (kept : ∀ pattern, .openCursor number pattern ∉ calls) :
    ∃ moved last', h.Open (Live.after calls live) number moved last' ∧
      h.Progress cursor (Live.returned number calls live) moved ∧
      ∀ v, (∀ early, early <+: calls → h.Holds (Live.after early live).subject v) →
        h.Ahead cursor v → some v ∈ Live.returned number calls live ∨ h.Ahead moved v := by
  induction calls generalizing live cursor last with
  | nil => exact ⟨cursor, last, isOpen, .refl cursor, fun v _ ahead => Or.inr ahead⟩
  | cons call rest ih =>
    have keptHere : ∀ pattern, call ≠ .openCursor number pattern :=
      fun pattern same => kept pattern (same ▸ List.mem_cons_self)
    obtain ⟨answer, middle, between, answered, standing, wants, turn⟩ :=
      isOpen.turn lawful keptHere
    obtain ⟨moved, last', still, second, comes⟩ := ih standing fun pattern member =>
      kept pattern (List.mem_cons_of_mem _ member)
    rw [Live.returned_cons, answered]
    refine ⟨moved, last', still, (turn.progress wants).trans second, fun v stays ahead => ?_⟩
    have later : ∀ early, early <+: rest →
        h.Holds (Live.after early (live.step call).2).subject v := fun early starts =>
      stays (call :: early) ((List.prefix_cons_inj call).mpr starts)
    rcases turn.passes lawful standing.valid (later [] List.nil_prefix) ahead with now | ahead
    · exact Or.inl (List.mem_append_left _ now)
    · rcases comes v later ahead with then' | ahead
      · exact Or.inl (List.mem_append_right _ then')
      · exact Or.inr ahead

theorem Lawful.valid_after (lawful : h.Lawful) (calls : List (Live.Call ω π)) {live : Live σ κ}
    (valid : h.Valid live.subject) : h.Valid (Live.after calls live).subject :=
  Live.subject_after lawful.unchanged h.Valid lawful.write calls valid

/-- Every answer is due to the cursor that is open. -/
theorem Open.answers (isOpen : h.Open live number cursor last) :
    (live.step (.next (ω := ω) (π := π) number)).1 =
      .item (some (Traversal.next live.subject cursor).1) := by
  rw [Live.step, Live.next, isOpen.found]

theorem count_some [DecidableEq ι] (answers : List (Option ι)) (item : ι) :
    answers.count (some item) = answers.reduceOption.count item := by
  induction answers with
  | nil => rfl
  | cons answer rest ih =>
    cases answer with
    | none => simpa using ih
    | some first => simp [List.count_cons, ih]

theorem Lawful.nodup (lawful : h.Lawful) {items : List ι} (ascending : items.Pairwise h.Before) :
    items.Nodup := by
  refine ascending.imp ?_
  rintro item _ before rfl
  exact lawful.irrefl item before

/-- A cursor that begins with all wanted items ahead that are there is consistent. -/
theorem Open.consistent [DecidableEq ι] (lawful : h.Lawful)
    (isOpen : h.Open live number cursor last)
    (begins : ∀ v, h.Holds live.subject v → h.Wants cursor v → h.Ahead cursor v)
    {during : List (Live.Call ω π)} (kept : ∀ pattern, .openCursor number pattern ∉ during) :
    ∃ answer, Live.Consistent h.Holds (h.Wants cursor) h.Before number live during answer := by
  obtain ⟨moved, last', still, progress, comes⟩ := isOpen.run lawful kept
  have sound : ∀ item, (Traversal.next (Live.after during live).subject moved).1 = some item →
      h.Hit (Live.after during live).subject moved item _ :=
    fun item answer => lawful.hit _ _ last' item still.valid still.stands answer
  refine ⟨_, still.answers, fun item answer => ?_, fun ended => ?_, fun atEnd item wanted stays => ?_⟩
  · have hit := sound item answer
    exact ⟨(progress.wants item).mp (lawful.wanted moved last' item still.stands hit.ahead), hit.holds,
      progress.past item hit.ahead⟩
  · cases answer : (Traversal.next (Live.after during live).subject moved).1 with
    | none => rfl
    | some item => exact absurd (sound item answer).ahead (progress.ended ended item)
  · have miss := lawful.miss _ _ last' still.valid still.stands atEnd
    have ahead := begins item (stays [] List.nil_prefix) wanted
    have there := stays during List.prefix_rfl
    rcases comes item stays ahead with member | still
    · rw [count_some]
      exact List.count_eq_one_of_mem (lawful.nodup progress.ascending)
        (List.reduceOption_mem_iff.mpr member)
    · exact absurd still (miss.nothing item there)

/-- At each moment a cursor that began with exactly the wanted items ahead has those ahead that
come after its last item and have not been parted from it. -/
theorem Open.ahead_iff (lawful : h.Lawful) (isOpen : h.Open live number cursor none)
    (begins : ∀ v, h.Ahead cursor v ↔ h.Wants cursor v) {during : List (Live.Call ω π)}
    (kept : ∀ pattern, .openCursor number pattern ∉ during)
    (unfinished : none ∉ Live.returned number during live) :
    ∃ moved last, h.Open (Live.after during live) number moved last ∧
      (Live.returned number during live).getLast? = last.map some ∧
      (∀ v, h.Wants moved v ↔ h.Wants cursor v) ∧
      ∀ v, h.Ahead moved v ↔ h.Wants cursor v ∧
        ∀ l, last = some l → h.Before l v ∧ ¬ Live.Parted h.Apart number live during l v := by
  induction during using List.reverseRecOn with
  | nil => exact ⟨cursor, none, isOpen, rfl, fun _ => Iff.rfl, fun v => by simp [begins v]⟩
  | append_singleton during call ih =>
    rw [Live.returned_concat] at unfinished ⊢
    simp only [List.mem_append, not_or] at kept unfinished
    obtain ⟨middle, last, standing, returned, wants, ahead⟩ :=
      ih (fun pattern member => (kept pattern).1 member) unfinished.1
    obtain ⟨answer, moved, last', answered, still, kept, turn⟩ := standing.turn lawful
      fun pattern same => (kept pattern).2 (same ▸ List.mem_singleton_self call)
    have finished := unfinished.2
    simp only [Live.parted_concat, Live.after_append, Live.after_cons, Live.after_nil]
    rw [answered] at finished ⊢
    refine ⟨moved, last', still, ?_, fun v => (kept v).trans (wants v), fun v => ?_⟩
    · cases turn <;> simp_all
    · cases turn with
      | rests other same =>
        have there : ∀ l, h.Apart ((Live.after during live).step call).2.subject l v →
            Live.Parted h.Apart number live during l v :=
          fun l apart => ⟨during, [], by simp, by simp, same ▸ apart⟩
        rw [ahead]
        grind
      | settles settled =>
        rw [settled, ahead]
        grind
      | hits same hit =>
        have joined := lawful.not_apart_left _ _ v standing.valid hit.holds
        rw [hit.later, wants, same]
        simp [joined]
      | misses => exact absurd List.mem_cons_self finished

/-- What is due is returned, unless the cursor has lost it. -/
theorem Open.returned_iff (lawful : h.Lawful) (isOpen : h.Open live number cursor none)
    (begins : ∀ v, h.Ahead cursor v ↔ h.Wants cursor v) {during later : List (Live.Call ω π)}
    (kept : ∀ pattern, .openCursor number pattern ∉ during ++ later) {v : ι}
    (due : Live.Due h.Holds h.Before number live during later v) (wanted : h.Wants cursor v) :
    some v ∈ Live.returned number later (Live.after during live) ↔
      ¬ Live.Lost h.Apart number live during v := by
  simp only [List.mem_append, not_or] at kept
  obtain ⟨middle, last, standing, returned, _, ahead⟩ :=
    isOpen.ahead_iff lawful begins (fun pattern => (kept pattern).1) due.unfinished
  obtain ⟨moved, last', still, progress, comes⟩ :=
    standing.run lawful (fun pattern => (kept pattern).2)
  have isAhead : h.Ahead middle v ↔ ¬ Live.Lost h.Apart number live during v := by
    have behind := due.behind
    rw [ahead, Live.Lost]
    rw [returned] at behind ⊢
    cases last <;> simp_all
  rw [← isAhead]
  refine ⟨progress.drawn v, fun isAhead => ?_⟩
  refine (comes v due.stays isAhead).resolve_right fun still' => ?_
  have ended := Live.Answer.item.inj (still.answers.symm.trans due.ends)
  have miss := lawful.miss _ _ last' still.valid still.stands (Option.some.inj ended)
  exact miss.nothing v (due.stays later List.prefix_rfl) still'

/-- A cursor with which a search begins, by the items that match its pattern. Over a container
that is not `filled` it may begin at its end. -/
structure Begins (h : Horizon σ κ ι) (s : σ) (pattern : π) (Matches : ι → Prop) (filled : Prop)
    (cursor : κ) : Prop where
  search : Searchable.search s pattern = .ok cursor
  stands : h.Stands cursor none
  agrees : ∀ v, h.Wants cursor v → Matches v
  wants : ∀ s' v, h.Valid s' → h.Holds s' v → Matches v → h.Wants cursor v
  present : ∀ v, h.Holds s v → h.Wants cursor v → h.Ahead cursor v
  all : filled → ∀ v, h.Ahead cursor v ↔ h.Wants cursor v

section Begins

variable {pattern : π} {Matches : ι → Prop} {filled : Prop}

/-- A search with a number is opened, and from then on its answers are consistent. -/
theorem Begins.consistent [DecidableEq ι] (lawful : h.Lawful) (valid : h.Valid live.subject)
    (begins : h.Begins live.subject pattern Matches filled cursor) {during : List (Live.Call ω π)}
    (kept : ∀ pattern, .openCursor number pattern ∉ during) :
    ∃ opened, live.step (.openCursor number pattern) = (.opened (.ok ()), opened) ∧
      ∃ answer, Live.Consistent h.Holds Matches h.Before number opened during answer := by
  refine ⟨_, Live.step_openCursor number begins.search, ?_⟩
  obtain ⟨answer, consistent⟩ := (Open.of_stands valid begins.stands).consistent lawful begins.present kept
  exact ⟨answer, consistent.congr begins.agrees fun v => begins.wants _ v valid⟩

/-- A search over a filled container returns what is due, unless it has lost it. -/
theorem Begins.returned_iff (lawful : h.Lawful) (valid : h.Valid live.subject)
    (begins : h.Begins live.subject pattern Matches filled cursor) (isFilled : filled)
    {during later : List (Live.Call ω π)}
    (kept : ∀ pattern, .openCursor number pattern ∉ during ++ later) :
    ∃ opened, live.step (.openCursor number pattern) = (.opened (.ok ()), opened) ∧
      ∀ v, Matches v → Live.Due h.Holds h.Before number opened during later v →
        (some v ∈ Live.returned number later (Live.after during opened) ↔
          ¬ Live.Lost h.Apart number opened during v) := by
  refine ⟨_, Live.step_openCursor number begins.search, fun v matching due => ?_⟩
  have isOpen : h.Open _ number cursor none := .of_stands valid begins.stands
  have wanted := begins.wants _ v (lawful.valid_after during isOpen.valid)
    (due.stays [] List.nil_prefix) matching
  exact isOpen.returned_iff lawful (begins.all isFilled) kept due wanted

end Begins

end Horizon

end TripleCube
