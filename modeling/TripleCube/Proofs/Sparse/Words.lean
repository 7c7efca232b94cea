import Mathlib.Order.Bounds.Defs
import TripleCube.Proofs.Sorted
import TripleCube.Sparse.Words

/-! Packed words as sets of slots. Reads and writes are those of a set of slots, and the
search that masks the first word and skips empty ones finds the least slot that is set at
or past its start. -/
namespace TripleCube.Words

/-- Whether a word has a bit. -/
def hasBit (word : UInt64) (bit : Nat) : Bool := word.toBitVec.getLsbD bit

theorem hasBit_of_le {word : UInt64} {bit : Nat} (le : 64 ≤ bit) : hasBit word bit = false :=
  BitVec.getLsbD_of_ge _ _ le

@[simp] theorem hasBit_zero (bit : Nat) : hasBit 0 bit = false := by simp [hasBit]

theorem eq_zero_iff (word : UInt64) : word = 0 ↔ ∀ bit, hasBit word bit = false := by
  constructor
  · rintro rfl bit
    exact hasBit_zero bit
  · intro none
    apply UInt64.toBitVec_inj.mp
    apply BitVec.eq_of_getLsbD_eq
    intro bit _
    simpa [hasBit] using none bit

theorem toNat_shiftAmount (slot : Nat) :
    ((slot % 64).toUInt64.toBitVec % 64).toNat = slot % 64 := by
  have small : slot % 64 < 64 := Nat.mod_lt _ (by decide)
  have word : (slot % 64).toUInt64.toNat = slot % 64 :=
    UInt64.toNat_ofNat_of_lt' (by simp only [UInt64.size]; omega)
  rw [BitVec.toNat_umod, UInt64.toNat_toBitVec, word]
  exact Nat.mod_eq_of_lt small

theorem hasBit_mask (slot bit : Nat) : hasBit (mask slot) bit = decide (slot % 64 = bit) := by
  have small : slot % 64 < 64 := Nat.mod_lt _ (by decide)
  have twoPow : (mask slot).toBitVec = BitVec.twoPow 64 (slot % 64) := by
    rw [mask, UInt64.toBitVec_shiftLeft, BitVec.shiftLeft_eq', toNat_shiftAmount,
      BitVec.twoPow_eq]
    rfl
  rw [hasBit, twoPow, BitVec.getLsbD_twoPow]
  simp [small]

theorem hasBit_and (a b : UInt64) (bit : Nat) :
    hasBit (a &&& b) bit = (hasBit a bit && hasBit b bit) := by
  simp [hasBit]

theorem hasBit_or (a b : UInt64) (bit : Nat) :
    hasBit (a ||| b) bit = (hasBit a bit || hasBit b bit) := by
  simp [hasBit]

theorem hasBit_not (word : UInt64) {bit : Nat} (lt : bit < 64) :
    hasBit (~~~word) bit = !hasBit word bit := by
  simp [hasBit, lt]

theorem hasBit_shiftRight_one (word : UInt64) (bit : Nat) :
    hasBit (word >>> 1) bit = hasBit word (bit + 1) := by
  simp [hasBit, Nat.add_comm]

/-- The bits from some bit on. -/
theorem hasBit_onesFrom (slot bit : Nat) :
    hasBit (~~~0 <<< (slot % 64).toUInt64) bit = decide (slot % 64 ≤ bit ∧ bit < 64) := by
  have ones : (~~~0 : UInt64).toBitVec = BitVec.allOnes 64 := rfl
  rw [hasBit, UInt64.toBitVec_shiftLeft, BitVec.shiftLeft_eq', toNat_shiftAmount, ones,
    BitVec.getLsbD_shiftLeft, BitVec.getLsbD_allOnes]
  by_cases lt : bit < 64
  · by_cases low : bit < slot % 64
    · simp [low, Nat.not_le.mpr low]
    · have inWord : bit - slot % 64 < 64 := by omega
      simp [lt, low, inWord, Nat.not_lt.mp low]
  · simp [lt]

theorem and_mask_ne_zero (word : UInt64) (slot : Nat) :
    (word &&& mask slot != 0) = hasBit word (slot % 64) := by
  have zero : word &&& mask slot = 0 ↔ hasBit word (slot % 64) = false := by
    rw [eq_zero_iff]
    simp only [hasBit_and, hasBit_mask]
    constructor
    · intro none
      simpa using none (slot % 64)
    · intro clear bit
      by_cases same : slot % 64 = bit
      · simp [← same, clear]
      · simp [same]
  cases bit : hasBit word (slot % 64) with
  | false => simp [zero.mpr bit]
  | true =>
    rw [bit] at zero
    simpa using zero

theorem get_eq_hasBit (words : Words) (slot : Nat) :
    words.get slot = ((words[slot / 64]?).map (hasBit · (slot % 64))).getD false := by
  rw [get]
  cases words[slot / 64]? with
  | none => rfl
  | some word => exact and_mask_ne_zero word slot

@[simp] theorem get_nil (slot : Nat) : get [] slot = false := rfl

/-- The words behind the first hold the slots from 64 on. -/
theorem get_cons (word : UInt64) (rest : Words) (slot : Nat) :
    get (word :: rest) slot = if slot < 64 then hasBit word slot else get rest (slot - 64) := by
  rw [get_eq_hasBit, get_eq_hasBit]
  split
  · next lt => simp [Nat.div_eq_of_lt lt, Nat.mod_eq_of_lt lt]
  · next ge =>
    have quotient : slot / 64 = (slot - 64) / 64 + 1 := by omega
    have remainder : slot % 64 = (slot - 64) % 64 := by omega
    rw [quotient, remainder, List.getElem?_cons_succ]

theorem get_zeros (bits slot : Nat) : (zeros bits).get slot = false := by
  rw [get_eq_hasBit, zeros, List.getElem?_replicate]
  split <;> simp

/-- Within one word, slots agree when their bits do. -/
theorem eq_iff_bit {slot other : Nat} (same : slot / 64 = other / 64) :
    slot = other ↔ slot % 64 = other % 64 := by omega

theorem get_set {words : Words} {slot : Nat} (inWords : slot / 64 < words.length) (other : Nat) :
    (words.set slot).get other = (decide (slot = other) || words.get other) := by
  rw [get_eq_hasBit, get_eq_hasBit, set, List.getElem?_modify]
  by_cases same : slot / 64 = other / 64
  · rw [← same, List.getElem?_eq_getElem inWords]
    simp [eq_iff_bit same, hasBit_or, hasBit_mask, Bool.or_comm]
  · have different : slot ≠ other := fun eq => same (congrArg (· / 64) eq)
    simp [same, different]

theorem get_clear (words : Words) (slot other : Nat) :
    (words.clear slot).get other = (!decide (slot = other) && words.get other) := by
  have small : other % 64 < 64 := Nat.mod_lt _ (by decide)
  rw [get_eq_hasBit, get_eq_hasBit, clear, List.getElem?_modify]
  by_cases same : slot / 64 = other / 64
  · cases words[other / 64]? with
    | none => simp
    | some word =>
      simp [same, eq_iff_bit same, hasBit_and, hasBit_not _ small, hasBit_mask, Bool.and_comm]
  · have different : slot ≠ other := fun eq => same (congrArg (· / 64) eq)
    simp [same, different]

theorem mem_slotsFrom {words : Words} {first slot : Nat} :
    slot ∈ slotsFrom words first ↔ first * 64 ≤ slot ∧ words.get (slot - first * 64) = true := by
  induction words generalizing first with
  | nil => simp [slotsFrom]
  | cons word rest ih =>
    have inWord : ∀ bit, bit < 64 → (word &&& mask bit != 0) = hasBit word bit := fun bit lt => by
      rw [and_mask_ne_zero, Nat.mod_eq_of_lt lt]
    simp only [slotsFrom, List.mem_append, List.mem_map, List.mem_filter, List.mem_range, ih,
      get_cons]
    constructor
    · rintro (⟨bit, ⟨lt, set⟩, rfl⟩ | ⟨le, set⟩)
      · rw [inWord bit lt] at set
        simp [lt, set]
      · have far : ¬ slot - first * 64 < 64 := by omega
        rw [if_neg far, Nat.sub_sub, ← Nat.succ_mul]
        exact ⟨by omega, set⟩
    · rintro ⟨le, set⟩
      by_cases near : slot - first * 64 < 64
      · rw [if_pos near] at set
        exact Or.inl ⟨slot - first * 64, ⟨near, by rwa [inWord _ near]⟩, by omega⟩
      · rw [if_neg near, Nat.sub_sub, ← Nat.succ_mul] at set
        exact Or.inr ⟨by omega, set⟩

theorem pairwise_slotsFrom (words : Words) (first : Nat) :
    (slotsFrom words first).Pairwise (· < ·) := by
  induction words generalizing first with
  | nil => exact List.Pairwise.nil
  | cons word rest ih =>
    refine List.pairwise_append.mpr ⟨?_, ih _, ?_⟩
    · rw [List.pairwise_map]
      exact (List.pairwise_lt_range.filter _).imp fun lt => Nat.add_lt_add_left lt _
    · intro a ma b mb
      obtain ⟨bit, listed, rfl⟩ := List.mem_map.mp ma
      have lt := List.mem_range.mp (List.mem_filter.mp listed).1
      have le := (mem_slotsFrom.mp mb).1
      omega

theorem mem_toList {words : Words} {slot : Nat} : slot ∈ words.toList ↔ words.get slot = true := by
  simp [toList, mem_slotsFrom]

theorem pairwise_toList (words : Words) : words.toList.Pairwise (· < ·) :=
  pairwise_slotsFrom words 0

theorem nodup_toList (words : Words) : words.toList.Nodup :=
  (pairwise_toList words).imp fun lt => Nat.ne_of_lt lt

theorem length_toList_set {words : Words} {slot : Nat} (inWords : slot / 64 < words.length)
    (unset : words.get slot = false) :
    (words.set slot).toList.length = words.toList.length + 1 := by
  have added : (words.set slot).toList.Perm (slot :: words.toList) := by
    have fresh : slot ∉ words.toList := by simp [mem_toList, unset]
    refine (List.perm_ext_iff_of_nodup (nodup_toList _)
      (List.nodup_cons.mpr ⟨fresh, nodup_toList _⟩)).mpr fun other => ?_
    simp only [mem_toList, get_set inWords, List.mem_cons, Bool.or_eq_true, decide_eq_true_eq]
    rw [eq_comm (a := slot)]
  exact added.length_eq

theorem length_toList_clear {words : Words} {slot : Nat} (isSet : words.get slot = true) :
    (words.clear slot).toList.length + 1 = words.toList.length := by
  have removed : (slot :: (words.clear slot).toList).Perm words.toList := by
    have gone : slot ∉ (words.clear slot).toList := by simp [mem_toList, get_clear]
    refine (List.perm_ext_iff_of_nodup (List.nodup_cons.mpr ⟨gone, nodup_toList _⟩)
      (nodup_toList _)).mpr fun other => ?_
    by_cases same : slot = other
    · simp [mem_toList, ← same, isSet]
    · simp [mem_toList, get_clear, same, Ne.symm same]
  exact removed.length_eq

/-- Counting up to a limit finds the lowest bit if there is one below the limit. -/
theorem countUpTo_spec {limit : Nat} {word : UInt64}
    (some : ∃ bit, bit < limit ∧ hasBit word bit = true) :
    hasBit word (trailingZeros.countUpTo limit word) = true ∧
      ∀ bit, bit < trailingZeros.countUpTo limit word → hasBit word bit = false := by
  have odd : ∀ word : UInt64, word &&& 1 = 1 ↔ hasBit word 0 = true := by
    intro word
    have least := and_mask_ne_zero word 0
    have one : mask 0 = 1 := by decide
    have bit : word &&& 1 = 0 ∨ word &&& 1 = 1 := by
      have remainder : (word &&& 1).toNat = word.toNat % 2 := by
        rw [UInt64.toNat_and]
        exact Nat.and_one_is_mod _
      rcases Nat.mod_two_eq_zero_or_one word.toNat with even | odd
      · exact Or.inl (UInt64.toNat_inj.mp (by rw [remainder, even]; rfl))
      · exact Or.inr (UInt64.toNat_inj.mp (by rw [remainder, odd]; rfl))
    rw [one] at least
    rw [← least]
    rcases bit with zero | one
    · simp [zero]
    · simp [one]
  induction limit generalizing word with
  | zero =>
    obtain ⟨bit, lt, _⟩ := some
    exact absurd lt (Nat.not_lt_zero bit)
  | succ limit ih =>
    rw [trailingZeros.countUpTo]
    split
    · next isOdd => exact ⟨(odd word).mp isOdd, fun bit lt => absurd lt (Nat.not_lt_zero bit)⟩
    · next isEven =>
      have zeroth : hasBit word 0 = false := by simpa [odd] using isEven
      obtain ⟨bit, lt, set⟩ := some
      cases bit with
      | zero => simp [zeroth] at set
      | succ bit =>
        have remains : ∃ bit, bit < limit ∧ hasBit (word >>> 1) bit = true :=
          ⟨bit, by omega, by rw [hasBit_shiftRight_one]; exact set⟩
        have shifted := ih remains
        simp only [hasBit_shiftRight_one] at shifted
        refine ⟨shifted.1, fun bit lt => ?_⟩
        cases bit with
        | zero => exact zeroth
        | succ bit => exact shifted.2 bit (by omega)

theorem trailingZeros_spec {word : UInt64} (nonzero : word ≠ 0) :
    hasBit word (trailingZeros word) = true ∧
      ∀ bit, bit < trailingZeros word → hasBit word bit = false := by
  refine countUpTo_spec (Classical.byContradiction fun none => nonzero ?_)
  refine (eq_zero_iff word).mpr fun bit => Bool.eq_false_iff.mpr fun set => none ⟨bit, ?_, set⟩
  exact Nat.lt_of_not_le fun le => by simp [hasBit_of_le le] at set

theorem firstSet?_eq (words : Words) (first : Nat) :
    firstSet? words first = (slotsFrom words first).head? := by
  induction words generalizing first with
  | nil => rfl
  | cons word rest ih =>
    rw [firstSet?, slotsFrom, List.head?_append, List.head?_map, List.head?_filter]
    split
    · next zero =>
      have none : (List.range 64).find? (fun slot => word &&& mask slot != 0) = none := by
        simp [zero]
      rw [none, ih]
      rfl
    · next nonzero =>
      obtain ⟨set, below⟩ := trailingZeros_spec nonzero
      have lt : trailingZeros word < 64 := Nat.lt_of_not_le fun le => by
        simp [hasBit_of_le le] at set
      have found : (List.range 64).find? (fun slot => word &&& mask slot != 0) =
          some (trailingZeros word) := by
        refine List.find?_range_eq_some.mpr ⟨?_, List.mem_range.mpr lt, fun bit before => ?_⟩
        · rw [and_mask_ne_zero, Nat.mod_eq_of_lt lt]
          exact set
        · rw [and_mask_ne_zero, Nat.mod_eq_of_lt (Nat.lt_trans before lt), below bit before]
          rfl
      rw [found]
      rfl

theorem get_drop (words : Words) (count slot : Nat) :
    get (words.drop count) slot = words.get (count * 64 + slot) := by
  have word : (count * 64 + slot) / 64 = count + slot / 64 := by omega
  have bit : (count * 64 + slot) % 64 = slot % 64 := by omega
  rw [get_eq_hasBit, get_eq_hasBit, List.getElem?_drop, word, bit]

/-- The search finds the first of the slots at or past its start. -/
theorem nextSet?_eq (words : Words) (start : Nat) :
    words.nextSet? start = (words.toList.filter (start ≤ ·)).head? := by
  have ascending := (pairwise_toList words).filter (start ≤ ·)
  have dropped := get_drop words (start / 64)
  rw [nextSet?]
  cases behind : words.drop (start / 64) with
  | nil =>
    have none : words.toList.filter (start ≤ ·) = [] := by
      apply List.filter_eq_nil_iff.mpr
      intro slot member
      have set := mem_toList.mp member
      intro le
      have le : start ≤ slot := by simpa using le
      have past := dropped (slot - start / 64 * 64)
      rw [behind, get_nil, show start / 64 * 64 + (slot - start / 64 * 64) = slot by omega] at past
      rw [← past] at set
      exact Bool.false_ne_true set
    rw [none]
    rfl
  | cons word rest =>
    rw [behind] at dropped
    dsimp only
    rw [firstSet?_eq]
    refine congrArg List.head? (Sorted.eq_of_mem_iff (fun _ _ => Nat.lt_asymm)
      (pairwise_slotsFrom _ _) ascending fun slot => ?_)
    rw [mem_slotsFrom, List.mem_filter, mem_toList, decide_eq_true_eq]
    by_cases le : start / 64 * 64 ≤ slot
    · have read := dropped (slot - start / 64 * 64)
      rw [show start / 64 * 64 + (slot - start / 64 * 64) = slot by omega] at read
      rw [← read, get_cons, get_cons]
      by_cases near : slot - start / 64 * 64 < 64
      · have place : start % 64 ≤ slot - start / 64 * 64 ∧ slot - start / 64 * 64 < 64 ↔
            start ≤ slot := by omega
        rw [if_pos near, if_pos near, hasBit_and, hasBit_onesFrom, Bool.and_eq_true,
          decide_eq_true_eq, place]
        simp [le]
      · have past : start ≤ slot := by omega
        simp [near, le, past]
    · have before : ¬ start ≤ slot := by omega
      simp [le, before]

theorem toList_zeros (bits : Nat) : (zeros bits).toList = [] := by
  apply List.eq_nil_iff_forall_not_mem.mpr
  intro slot member
  simp [mem_toList, get_zeros] at member

/-- Whether a slot is set, read off the numbers that the words are. -/
def IsSet (words : Words) (slot : Nat) : Prop :=
  ∃ word, words[slot / 64]? = some word ∧ word.toNat.testBit (slot % 64) = true

theorem get_eq_true_iff {words : Words} {slot : Nat} : words.get slot = true ↔ words.IsSet slot := by
  rw [get_eq_hasBit, IsSet]
  cases words[slot / 64]? with
  | none => simp
  | some word => simp [hasBit, BitVec.getLsbD]

theorem IsSet.lt {words : Words} {slot : Nat} (set : words.IsSet slot) :
    slot < words.length * 64 := by
  obtain ⟨word, found, -⟩ := set
  have inWords := (List.getElem?_eq_some_iff.mp found).1
  omega

theorem mem_ahead {words : Words} {start slot : Nat} :
    slot ∈ words.toList.filter (start ≤ ·) ↔ start ≤ slot ∧ words.IsSet slot := by
  rw [List.mem_filter, mem_toList, get_eq_true_iff, decide_eq_true_eq, and_comm]

theorem nextSet?_eq_none_iff (words : Words) (start : Nat) :
    words.nextSet? start = none ↔ ∀ slot, start ≤ slot → ¬ words.IsSet slot := by
  rw [nextSet?_eq, List.head?_eq_none_iff, List.eq_nil_iff_forall_not_mem]
  simp only [mem_ahead, not_and]

theorem isLeast_of_nextSet? {words : Words} {start slot : Nat}
    (found : words.nextSet? start = some slot) :
    IsLeast {other | start ≤ other ∧ words.IsSet other} slot := by
  rw [nextSet?_eq] at found
  refine ⟨mem_ahead.mp (List.mem_of_head? found), fun other ahead => ?_⟩
  obtain ⟨rest, listed⟩ := List.head?_eq_some_iff.mp found
  have ascends := (pairwise_toList words).filter (start ≤ ·)
  have member := mem_ahead.mpr ahead
  rw [listed] at ascends member
  rcases List.mem_cons.mp member with rfl | later
  · exact Nat.le_refl _
  · exact Nat.le_of_lt ((List.pairwise_cons.mp ascends).1 other later)

/-- Whatever the words, and wherever a search begins in them or behind them, it finds the least
slot from there on that is set, and nothing exactly when none is. -/
theorem nextSet?_finds_least (words : Words) (start : Nat) :
    (∀ slot, words.nextSet? start = some slot ↔
      IsLeast {other | start ≤ other ∧ words.IsSet other} slot) ∧
    (words.nextSet? start = none ↔ ∀ slot, start ≤ slot → ¬ words.IsSet slot) ∧
    (words.length * 64 ≤ start → words.nextSet? start = none) := by
  refine ⟨fun slot => ⟨isLeast_of_nextSet?, fun least => ?_⟩, nextSet?_eq_none_iff words start,
    fun behind => ?_⟩
  · cases found : words.nextSet? start with
    | none => exact absurd least.1.2 ((nextSet?_eq_none_iff words start).mp found slot least.1.1)
    | some first =>
      have isFirst := isLeast_of_nextSet? found
      exact congrArg some (Nat.le_antisymm (isFirst.2 least.1) (least.2 isFirst.1))
  · refine (nextSet?_eq_none_iff words start).mpr fun slot ahead set => ?_
    exact absurd set.lt (Nat.not_lt.mpr (Nat.le_trans behind ahead))

/-- Bit 3 lies before the start, and the next word has no bit. -/
example : nextSet? [0x8, 0, 0x12] 4 = some 129 := by decide

end TripleCube.Words
